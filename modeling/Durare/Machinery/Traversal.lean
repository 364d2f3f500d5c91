import Mathlib.Data.Finset.Card
import Mathlib.Logic.Relation

/-!
# Machinery/Traversal — collecting what hangs below a root

A stack-driven walk that takes an item off a stack and puts its children there, without looking
whether it has met them before.  It ends if nothing below the root goes round in a circle
(`exists_collect`) and only then (`acc_of_collect`); and if every item has one parent, what it
collects is collected once (`nodup_collect`), and it is everything below the root
(`mem_collect_iff`).

A walk that does look has a growing list instead of a stack, `Spreads`.  Over finitely many items it
always ends (`spreads_spread`), and with everything below the items it began with
(`Spreads.mem_iff`).
-/

namespace Traversal

open List

variable {α : Type*} (children : α → List α)

/-- Take an item off the stack, and put its children there; `found` is everything put there so far.
`fuel` bounds the rounds. -/
def collect : Nat → List α → List α → Option (List α)
  | _, [], found => some found
  | 0, _ :: _, _ => none
  | fuel + 1, x :: stack, found =>
    collect fuel ((children x).reverse ++ stack) (found ++ children x)

/-- `y` hangs directly below `x`. -/
def Below (x y : α) : Prop := y ∈ children x

variable {children} {fuel : Nat} {stack found out : List α} {x y root : α}

theorem not_self {r : α → α → Prop} (h : Acc r x) : ¬r x x := by
  induction h with
  | intro x _ ih => exact fun hx => ih x hx hx

/-! ## When the walk ends -/

/-- The walk comes to the children of what is on the stack, with less fuel. -/
theorem collect_child (h : collect children fuel stack found = some out) (hx : x ∈ stack)
    (hy : Below children x y) : ∃ fuel' stack' found', fuel' < fuel ∧ y ∈ stack' ∧
      collect children fuel' stack' found' = some out := by
  induction fuel generalizing stack found with
  | zero =>
    cases hx with
    | head => cases h
    | tail => cases h
  | succ fuel ih =>
    cases stack with
    | nil => cases hx
    | cons z stack =>
      rcases mem_cons.mp hx with rfl | hx
      · exact ⟨fuel, _, _, Nat.lt_succ_self fuel,
          mem_append_left _ (mem_reverse.mpr hy), h⟩
      · obtain ⟨fuel', stack', found', hlt, hmem, hrun⟩ := ih h (mem_append_right _ hx)
        exact ⟨fuel', stack', found', Nat.lt_succ_of_lt hlt, hmem, hrun⟩

/-- **Nothing below the root goes round in a circle**, if the walk ends. -/
theorem acc_of_collect (h : collect children fuel stack found = some out) (hx : x ∈ stack) :
    Acc (fun y x => Below children x y) x := by
  induction fuel using Nat.strongRecOn generalizing stack found x with
  | ind fuel ih =>
    refine ⟨x, fun y hy => ?_⟩
    obtain ⟨fuel', stack', found', hlt, hmem, hrun⟩ := collect_child h hx hy
    exact ih fuel' hlt hrun hmem

/-- The walk from this stack ends. -/
def Ends (children : α → List α) (stack : List α) : Prop :=
  ∀ found, ∃ fuel out, collect children fuel stack found = some out

theorem ends_append {xs : List α} (hxs : ∀ x ∈ xs, ∀ stack, Ends children stack →
    Ends children (x :: stack)) (hstack : Ends children stack) : Ends children (xs ++ stack) := by
  induction xs with
  | nil => exact hstack
  | cons x xs ih =>
    exact hxs x mem_cons_self _ (ih fun y hy => hxs y (mem_cons_of_mem _ hy))

/-- **The walk ends**, if nothing below the root goes round in a circle. -/
theorem exists_collect (h : Acc (fun y x => Below children x y) root) :
    ∃ fuel out, collect children fuel [root] found = some out := by
  have hends : ∀ stack, Ends children stack → Ends children (root :: stack) := by
    induction h with
    | intro x _ ih =>
      intro stack hstack found
      have hends : Ends children ((children x).reverse ++ stack) :=
        ends_append (fun y hy => ih y (mem_reverse.mp hy)) hstack
      obtain ⟨fuel, out, hrun⟩ := hends (found ++ children x)
      exact ⟨fuel + 1, out, hrun⟩
  exact hends [] (fun found => ⟨0, found, rfl⟩) found

/-! ## Circles -/

section

variable {r : α → α → Prop}

/-- Where everything has at most one above it, a circle below the root goes through the root. -/
theorem circle_of_below (hunique : ∀ {x x' y}, r x y → r x' y → x = x')
    (hbelow : Relation.ReflTransGen r root y) (hcircle : Relation.TransGen r y y) :
    Relation.TransGen r root root := by
  induction hbelow with
  | refl => exact hcircle
  | tail _ hxy ih =>
    -- The circle comes back to `y` through the only one above it.
    obtain ⟨z, hyz, hzy⟩ := Relation.TransGen.tail'_iff.mp hcircle
    obtain rfl := hunique hzy hxy
    exact ih (Relation.TransGen.head' hxy hyz)

/-- What is above finitely many, and in no circle, is accessible: what is below a child is below its
parent, and the child itself is not below itself. -/
theorem acc_of_no_circle (U : Finset α) (hU : ∀ {x y}, r x y → y ∈ U)
    (h : ∀ y, Relation.ReflTransGen r root y → ¬Relation.TransGen r y y) :
    Acc (fun y x => r x y) root := by
  classical
  induction hn : (U.filter (Relation.TransGen r root ·)).card using Nat.strongRecOn
    generalizing root
  case ind n ih =>
    subst hn
    refine ⟨root, fun y hy => ih _ (Finset.card_lt_card ?_) (fun z hz => h z ?_) rfl⟩
    · rw [Finset.ssubset_iff_of_subset]
      · exact ⟨y, Finset.mem_filter.mpr ⟨hU hy, .single hy⟩,
          fun hmem => h y (.single hy) (Finset.mem_filter.mp hmem).2⟩
      · intro z hz
        obtain ⟨hzU, hyz⟩ := Finset.mem_filter.mp hz
        exact Finset.mem_filter.mpr ⟨hzU, .head hy hyz⟩
    · exact hz.head hy

/-- What is accessible is in no circle. -/
theorem no_circle_of_acc (h : Acc (fun y x => r x y) root) : ¬Relation.TransGen r root root :=
  fun hcircle => not_self h.transGen (Relation.transGen_swap.mpr hcircle)

end

/-- What holds at the start of a walk, and is kept by its rounds, holds at its end. -/
theorem collect_rec {P : List α → List α → Prop} (hround : ∀ x stack found, P (x :: stack) found →
      P ((children x).reverse ++ stack) (found ++ children x))
    (hrun : collect children fuel stack found = some out) (h : P stack found) : P [] out := by
  induction fuel generalizing stack found with
  | zero =>
    cases stack with
    | nil =>
      cases hrun
      exact h
    | cons x stack => cases hrun
  | succ fuel ih =>
    cases stack with
    | nil =>
      cases hrun
      exact h
    | cons x stack => exact ih hrun (hround x stack found h)

/-! ## Nothing is collected twice -/

/-- The state of a walk: everything was found once, below the root, and nothing below the stack has
been found yet. -/
structure WalkState (children : α → List α) (root : α) (stack found : List α) : Prop where
  nodup : found.Nodup
  stackNodup : stack.Nodup
  subset : stack ⊆ found
  ahead : ∀ x ∈ stack, ∀ y ∈ children x, y ∉ found
  born : ∀ y ∈ found, y = root ∨ ∃ x ∈ found, Below children x y
  below : ∀ y ∈ found, Relation.ReflTransGen (Below children) root y

section

variable (hnodup : ∀ x, (children x).Nodup)
  (hparent : ∀ {x x' y}, Below children x y → Below children x' y → x = x')
  (hacc : Acc (fun y x => Below children x y) root)

include hnodup hparent hacc

theorem WalkState.step (h : WalkState children root (x :: stack) found) :
    WalkState children root ((children x).reverse ++ stack) (found ++ children x) := by
  have hx : x ∈ found := h.subset mem_cons_self
  have hnew : ∀ y ∈ children x, y ∉ found := h.ahead x mem_cons_self
  have hdisjoint : found.Disjoint (children x) := fun y hy hy' => hnew y hy' hy
  obtain ⟨hxstack, hstack⟩ := nodup_cons.mp h.stackNodup
  refine ⟨h.nodup.append (hnodup x) hdisjoint, ?_, ?_, ?_, ?_, ?_⟩
  · refine (nodup_reverse.mpr (hnodup x)).append hstack fun y hy hy' => ?_
    exact hnew y (mem_reverse.mp hy) (h.subset (mem_cons_of_mem _ hy'))
  · intro y hy
    rcases mem_append.mp hy with hy | hy
    · exact mem_append_right _ (mem_reverse.mp hy)
    · exact mem_append_left _ (h.subset (mem_cons_of_mem _ hy))
  · intro z hz y hy hfound
    rcases mem_append.mp hz with hz | hz
    · -- `z` is new, so what has `z` for its parent was not found before it.
      have hznew := hnew z (mem_reverse.mp hz)
      rcases mem_append.mp hfound with hfound | hfound
      · rcases h.born y hfound with rfl | ⟨x', hx', hx'y⟩
        · have hcycle : Relation.TransGen (Below children) y y :=
            .tail' ((h.below x hx).tail (mem_reverse.mp hz)) hy
          exact not_self hacc.transGen (Relation.transGen_swap.mpr hcycle)
        · exact hznew (hparent hx'y hy ▸ hx')
      · exact hznew (hparent hfound hy ▸ hx)
    · rcases mem_append.mp hfound with hfound | hfound
      · exact h.ahead z (mem_cons_of_mem _ hz) y hy hfound
      · exact hxstack (hparent hfound hy ▸ hz)
  · intro y hy
    rcases mem_append.mp hy with hy | hy
    · rcases h.born y hy with hroot | ⟨x', hx', hy'⟩
      · exact .inl hroot
      · exact .inr ⟨x', mem_append_left _ hx', hy'⟩
    · exact .inr ⟨x, mem_append_left _ hx, hy⟩
  · exact forall_mem_append.mpr ⟨h.below, fun y hy => (h.below x hx).tail hy⟩

theorem WalkState.collect (h : WalkState children root stack found)
    (hrun : collect children fuel stack found = some out) : WalkState children root [] out :=
  collect_rec (fun _ _ _ h => h.step hnodup hparent hacc) hrun h

end

theorem WalkState.start (hself : ¬Below children root root) : WalkState children root
    [root] [root] := by
  refine ⟨nodup_singleton _, nodup_singleton _, List.Subset.refl _, ?_, ?_, ?_⟩
  · rintro x hx y hy hfound
    rw [mem_singleton] at hx hfound
    subst hx hfound
    exact hself hy
  · exact fun y hy => .inl (mem_singleton.mp hy)
  · intro y hy
    rw [mem_singleton.mp hy]

/-- **What the walk collects is collected once**, if every item has one parent. -/
theorem nodup_collect (hnodup : ∀ x, (children x).Nodup)
    (hparent : ∀ {x x' y}, Below children x y → Below children x' y → x = x')
    (h : collect children fuel [root] [root] = some out) : out.Nodup := by
  have hacc := acc_of_collect h (mem_singleton_self root)
  exact (WalkState.collect hnodup hparent hacc (.start fun hself => not_self hacc hself) h).nodup

/-- What the walk has found stands first in what it finds. -/
theorem prefix_collect (h : collect children fuel stack found = some out) : found <+: out :=
  collect_rec (P := fun _ => (found <+: ·)) (fun _ _ _ h => h.trans (prefix_append _ _)) h
    (prefix_refl found)

theorem mem_collect (h : collect children fuel stack found = some out) (hy : y ∈ out) :
    y ∈ found ∨ ∃ x, Below children x y := by
  refine collect_rec (P := fun _ out => ∀ y ∈ out, y ∈ found ∨ ∃ x, Below children x y)
    (fun x _ _ h y hy => ?_) h (fun _ => .inl) y hy
  rcases mem_append.mp hy with hfound | hchild
  · exact h y hfound
  · exact .inr ⟨x, hchild⟩

/-- The state of a walk: everything found is below the root, and its children are found too unless
it is still on the stack. -/
structure Complete (children : α → List α) (root : α) (stack found : List α) : Prop where
  subset : stack ⊆ found
  below : ∀ y ∈ found, Relation.ReflTransGen (Below children) root y
  closed : ∀ x ∈ found, x ∈ stack ∨ ∀ y ∈ children x, y ∈ found

theorem Complete.step (h : Complete children root (x :: stack) found) :
    Complete children root ((children x).reverse ++ stack) (found ++ children x) := by
  have hx : x ∈ found := h.subset mem_cons_self
  refine ⟨?_, ?_, ?_⟩
  · intro y hy
    rcases mem_append.mp hy with hy | hy
    · exact mem_append_right _ (mem_reverse.mp hy)
    · exact mem_append_left _ (h.subset (mem_cons_of_mem _ hy))
  · exact forall_mem_append.mpr ⟨h.below, fun y hy => (h.below x hx).tail hy⟩
  · intro z hz
    rcases mem_append.mp hz with hz | hz
    · rcases h.closed z hz with hstack | hclosed
      · rcases mem_cons.mp hstack with rfl | hstack
        · exact .inr fun y hy => mem_append_right _ hy
        · exact .inl (mem_append_right _ hstack)
      · exact .inr fun y hy => mem_append_left _ (hclosed y hy)
    · exact .inl (mem_append_left _ (mem_reverse.mpr hz))

theorem Complete.collect (h : Complete children root stack found)
    (hrun : collect children fuel stack found = some out) : Complete children root [] out :=
  collect_rec (fun _ _ _ h => h.step) hrun h

/-- **The walk collects everything below the root**, and nothing else. -/
theorem mem_collect_iff (h : collect children fuel [root] [root] = some out) :
    y ∈ out ↔ Relation.ReflTransGen (Below children) root y := by
  have hroot : ∀ y ∈ [root], Relation.ReflTransGen (Below children) root y := by
    intro y hy
    rw [mem_singleton.mp hy]
  have hout := Complete.collect ⟨List.Subset.refl _, hroot, fun _ hx => .inl hx⟩ h
  refine ⟨hout.below y, fun hy => ?_⟩
  induction hy with
  | refl => exact (prefix_collect h).subset (mem_singleton_self root)
  | tail _ hyz ih => exact ((hout.closed _ ih).resolve_left not_mem_nil) _ hyz

/-! ## Growing a list -/

section

variable [DecidableEq α]

variable (children) in
/-- Go along a list, and append the children that are not in it yet.  `fuel` bounds the rounds. -/
def spread : Nat → Nat → List α → List α
  | 0, _, found => found
  | fuel + 1, i, found => match found[i]? with
    | none => found
    | some x => spread fuel (i + 1) (found ++ (children x).filter (· ∉ found))

variable (children) in
/-- The same walk without a bound: it comes to its end with the list `out`. -/
inductive Spreads : Nat → List α → List α → Prop where
  | done {i : Nat} {found : List α} (h : found[i]? = none) : Spreads i found found
  | round {i : Nat} {found out : List α} {x : α} (h : found[i]? = some x)
      (rest : Spreads (i + 1) (found ++ (children x).filter (· ∉ found)) out) : Spreads i found out

variable {i : Nat} {U : Finset α}

theorem card_sdiff_append {new : List α} (hnodup : new.Nodup) (hnew : ∀ y ∈ new, y ∈ U ∧
    y ∉ found) : (U \ (found ++ new).toFinset).card + new.length = (U \ found.toFinset).card := by
  have hsub : new.toFinset ⊆ U \ found.toFinset := by
    intro y hy
    obtain ⟨hU, hfound⟩ := hnew y (mem_toFinset.mp hy)
    exact Finset.mem_sdiff.mpr ⟨hU, fun h => hfound (mem_toFinset.mp h)⟩
  have hsdiff : U \ (found.toFinset ∪ new.toFinset) = (U \ found.toFinset) \ new.toFinset :=
    sdiff_sdiff_left.symm
  rw [toFinset_append, hsdiff, ← toFinset_card_of_nodup hnodup]
  exact Finset.card_sdiff_add_card_eq_card hsub

/-- **The walk ends**: each round uses up one item of the list, and what it appends was not there.
-/
theorem spreads_spread (hnodup : ∀ x, (children x).Nodup) (hU : ∀ x, ∀ y ∈ children x, y ∈ U)
    (hfuel : found.length - i + (U \ found.toFinset).card < fuel) :
    Spreads children i found (spread children fuel i found) := by
  induction fuel generalizing i found with
  | zero => exact absurd hfuel (Nat.not_lt_zero _)
  | succ fuel ih =>
    unfold spread
    cases hi : found[i]? with
    | none => exact .done hi
    | some x =>
      refine .round hi (ih ?_)
      have hlt : i < found.length := (List.getElem?_eq_some_iff.mp hi).1
      have hnew : ∀ y ∈ (children x).filter (· ∉ found), y ∈ U ∧ y ∉ found := by
        intro y hy
        obtain ⟨hy, hfound⟩ := mem_filter.mp hy
        exact ⟨hU x y hy, of_decide_eq_true hfound⟩
      have hcard := card_sdiff_append ((hnodup x).filter (· ∉ found)) hnew
      rw [length_append]
      omega

theorem Spreads.subset (h : Spreads children i found out) : found ⊆ out := by
  induction h with
  | done => exact List.Subset.refl _
  | round _ _ ih => exact List.Subset.trans (subset_append_left _ _) ih

/-- What the walk comes to is below something it began with. -/
theorem Spreads.exists_above (h : Spreads children i found out) (hy : y ∈ out) :
    ∃ x ∈ found, Relation.ReflTransGen (Below children) x y := by
  induction h with
  | done => exact ⟨y, hy, .refl⟩
  | @round i found out z hz _ ih =>
    obtain ⟨x, hx, hxy⟩ := ih hy
    rcases mem_append.mp hx with hx | hx
    · exact ⟨x, hx, hxy⟩
    · exact ⟨z, mem_of_getElem? hz, .head (mem_filter.mp hx).1 hxy⟩

/-- The children of what the walk has passed are in the list, and so they are of the whole list at
the end. -/
theorem Spreads.closed (h : Spreads children i found out)
    (hpassed : ∀ x ∈ found.take i, ∀ y ∈ children x, y ∈ found) :
    ∀ x ∈ out, ∀ y ∈ children x, y ∈ out := by
  induction h with
  | @done i found hi =>
    rw [take_of_length_le (List.getElem?_eq_none_iff.mp hi)] at hpassed
    exact hpassed
  | @round i found out z hz _ ih =>
    refine ih fun x hx y hy => ?_
    have hlt : i < found.length := (List.getElem?_eq_some_iff.mp hz).1
    rw [take_append_of_le_length hlt, take_add_one, hz, mem_append] at hx
    rcases hx with hx | hx
    · exact mem_append_left _ (hpassed x hx y hy)
    · cases mem_singleton.mp hx
      by_cases hyf : y ∈ found
      · exact mem_append_left _ hyf
      · exact mem_append_right _ (mem_filter.mpr ⟨hy, decide_eq_true hyf⟩)

/-- **The walk comes to everything below the items it began with**, and to nothing else. -/
theorem Spreads.mem_iff (h : Spreads children 0 found out) :
    y ∈ out ↔ ∃ x ∈ found, Relation.ReflTransGen (Below children) x y := by
  refine ⟨h.exists_above, ?_⟩
  rintro ⟨x, hx, hxy⟩
  induction hxy with
  | refl => exact h.subset hx
  | tail _ hyz ih => exact h.closed (fun _ h => (by cases h)) _ ih _ hyz

end

end Traversal
