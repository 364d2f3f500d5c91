import Mathlib.Data.List.Basic
import Mathlib.Data.List.Count

/-!
# Machinery/SealedLog — append-only logs that can be sealed

The entries of a log are values and seals.  A log is **intact** if nothing stands after a seal: then
it is its values followed by at most one seal (`Intact.eq`), and it stays intact if entries are only
appended to it while it has none (`Intact.append`).

`upToSeal` reads a log up to its first seal.  `upToSeal_drop` is the read of somebody who has
already got the first `n` values: the others, and whether the log is sealed.  `visible_mono` is what
a growing log shows to its readers: more values as long as it is not sealed, and the same ones after
that.
-/

namespace SealedLog

open List

variable {α : Type*}

/-- There is a seal. -/
def isSealed (log : List (Option α)) : Bool := log.any Option.isNone

/-- The values of a log. -/
def values (log : List (Option α)) : List α := log.filterMap id

/-- The values before the first seal, and whether there is one. -/
def upToSeal : List (Option α) → List α × Bool
  | [] => ([], false)
  | none :: _ => ([], true)
  | some v :: log => (v :: (upToSeal log).1, (upToSeal log).2)

/-- What a reader gets to see of a log. -/
def visible (log : List (Option α)) : List α := (upToSeal log).1

variable {log log' : List (Option α)}

@[simp] theorem isSealed_nil : isSealed ([] : List (Option α)) = false := rfl

@[simp] theorem isSealed_none : isSealed (none :: log) = true := rfl

@[simp] theorem isSealed_some (v : α) : isSealed (some v :: log) = isSealed log := rfl

@[simp] theorem isSealed_append : isSealed (log ++ log') = (isSealed log || isSealed log') :=
  any_append

theorem isSealed_iff : isSealed log = true ↔ none ∈ log := by
  simp [isSealed, List.any_eq_true, Option.isNone_iff_eq_none]

/-! ## Intact logs -/

/-- At most one seal, and nothing after it. -/
structure Intact (log : List (Option α)) : Prop where
  once : log.countP Option.isNone ≤ 1
  last : ∀ before rest, log = before ++ none :: rest → rest = []

theorem intact_nil : Intact ([] : List (Option α)) :=
  ⟨Nat.zero_le _, fun before _ h => by cases before <;> cases h⟩

theorem Intact.of_cons {v : α} (h : Intact (some v :: log)) : Intact log where
  once := by simpa using h.once
  last before rest heq := h.last (some v :: before) rest (by rw [heq]; rfl)

/-- **An intact log is its values and its seal.** -/
theorem Intact.eq (h : Intact log) :
    log = (values log).map some ++ if isSealed log then [none] else [] := by
  induction log with
  | nil => rfl
  | cons e log ih => cases e with
    | none =>
      obtain rfl := h.last [] log rfl
      rfl
    | some v => exact congrArg (some v :: ·) (ih h.of_cons)

/-- A log of values, sealed or not, is intact. -/
theorem intact_values (vs : List α) (e : Option α) : Intact (vs.map some ++ [e]) := by
  induction vs with
  | nil =>
    refine ⟨countP_le_length, fun before rest heq => ?_⟩
    cases before with
    | nil => exact (List.cons.inj heq).2.symm
    | cons x before => cases before <;> cases (List.cons.inj heq).2
  | cons v vs ih =>
    refine ⟨by simpa using ih.once, fun before rest heq => ?_⟩
    cases before with
    | nil => cases (List.cons.inj heq).1
    | cons x before => exact ih.last before rest (List.cons.inj heq).2

/-- **An entry is appended to a log without a seal.** -/
theorem Intact.append (h : Intact log) (hopen : isSealed log = false) (e : Option α) :
    Intact (log ++ [e]) := by
  rw [h.eq, hopen]
  simpa using intact_values (values log) e

/-! ## Reading -/

theorem upToSeal_map_some (vs : List α) : upToSeal (vs.map some ++ log) =
    (vs ++ (upToSeal log).1, (upToSeal log).2) := by
  induction vs with
  | nil => rfl
  | cons v vs ih => simp [upToSeal, ih]

/-- A log shows its values up to the seal, and goes on behind them. -/
theorem exists_eq_visible (log : List (Option α)) :
    ∃ rest, log = (visible log).map some ++ rest ∧ upToSeal rest = ([], isSealed log) := by
  induction log with
  | nil => exact ⟨[], rfl, rfl⟩
  | cons e log ih => cases e with
    | none => exact ⟨none :: log, rfl, rfl⟩
    | some v =>
      obtain ⟨rest, heq, hrest⟩ := ih
      exact ⟨rest, congrArg (some v :: ·) heq, hrest⟩

/-- **One read**: behind the first `n` visible values it finds the others, and the seal if there is
one. -/
theorem upToSeal_drop {n : Nat} (hn : n ≤ (visible log).length) :
    upToSeal (log.drop n) = ((visible log).drop n, isSealed log) := by
  obtain ⟨rest, heq, hrest⟩ := exists_eq_visible log
  have hdrop : log.drop n = ((visible log).drop n).map some ++ rest := by
    conv_lhs => rw [heq]
    rw [drop_append_of_le_length (by simpa using hn), map_drop]
  rw [hdrop, upToSeal_map_some, hrest, append_nil]

theorem Intact.visible_eq (h : Intact log) : visible log = values log := by
  induction log with
  | nil => rfl
  | cons e log ih => cases e with
    | none =>
      obtain rfl := h.last [] log rfl
      rfl
    | some v => exact congrArg (v :: ·) (ih h.of_cons)

/-- **A log that grows** shows more values, and after its seal no others. -/
theorem visible_append : visible (log ++ log') =
    visible log ++ if isSealed log then [] else visible log' := by
  induction log with
  | nil => rfl
  | cons e log ih => cases e with
    | none => rfl
    | some v => exact congrArg (v :: ·) ih

theorem visible_mono (h : log <+: log') : visible log <+: visible log' := by
  obtain ⟨rest, rfl⟩ := h
  rw [visible_append]
  exact prefix_append _ _

theorem visible_eq_of_sealed (h : log <+: log') (hsealed : isSealed log = true) :
    visible log' = visible log := by
  obtain ⟨rest, rfl⟩ := h
  rw [visible_append, if_pos hsealed, append_nil]

end SealedLog
