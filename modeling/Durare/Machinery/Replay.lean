import Mathlib.Data.Int.Order.Basic
import Mathlib.Tactic.Common

/-!
# Machinery/Replay — deterministic programs over a write-once log

A program is a tree of operations, each continued by its answer.  Operations take consecutive
**slots** of a log, and what an operation answers is read off the row in its first slot.

* `eval` — the program evaluated purely against a log.
* `Path` — how far a log carries a program.
* `Consistent` — every row on the path was left there by the operation that owns its slot, and
  there is none past the first operation without a row.
* `consistent_extends` — **rows added by the operation at the end of a path keep the log
  consistent**: this is what makes re-execution after any crash read the same path again.
* `consistent_cut` — so does **cutting the log off**.
* `Course` — the way a program takes when every operation has a fixed answer.
-/

universe u v w

/-- A deterministic program: the next operation depends on the answers so far only. -/
inductive Program (O : Type u) (T : O → Type v) (R : Type w) where
  | done (r : R)
  | op (o : O) (k : T o → Program O T R)

/-- A program that ends with `g` of what it ended with. -/
def Program.map {O : Type u} {T : O → Type v} {R R' : Type w} (g : R → R') :
    Program O T R → Program O T R'
  | done r => done (g r)
  | op o k => op o fun t => (k t).map g

/-- How an operation uses the log: the slots it takes, its answer when it takes none, the answer a
row in its first slot stands for, and the rows it may leave in the first and in the later slots. -/
structure Recorder (Row : Type*) (T : Type*) where
  width : Nat
  silent : T
  outcome : Row → T
  Head : Row → Prop
  Tail : Row → Prop

namespace Program

variable {O : Type u} {T : O → Type v} {R : Type w} {Row : Type*}
  (spec : (o : O) → Recorder Row (T o)) (log log' : Int → Option Row)

/-- The answer the log holds for the operation `o` at slot `n`. -/
def answer (o : O) (n : Int) : Option (T o) :=
  if (spec o).width = 0 then some (spec o).silent else (log n).map (spec o).outcome

/-- Evaluate a program against the log alone, from slot `n`. -/
def eval : Program O T R → Int → Option R
  | done r, _ => some r
  | op o k, n => match answer spec log o n with
    | some t => eval (k t) (n + (spec o).width)
    | none => none

/-- The log leads the program `p` at slot `n` to the program `q` at slot `m`. -/
inductive Path : Program O T R → Int → Program O T R → Int → Prop where
  | nil {p : Program O T R} {n : Int} : Path p n p n
  | cons {o : O} {k : T o → Program O T R} {n m : Int} {q : Program O T R} {t : T o}
      (h : answer spec log o n = some t) (rest : Path (k t) (n + (spec o).width) q m) :
      Path (op o k) n q m

/-- The rows in the slots of `o` at `n` are rows `o` leaves there. -/
structure Owned (o : O) (n : Int) : Prop where
  head : 0 < (spec o).width → ∀ row, log n = some row → (spec o).Head row
  tail : ∀ i, n < i → i < n + (spec o).width → ∀ row, log i = some row → (spec o).Tail row

/-- Every row belongs to an operation on the path, and there is none past the first operation
without an answer. -/
def Consistent : Program O T R → Int → Prop
  | done _, n => ∀ m, n ≤ m → log m = none
  | op o k, n => Owned spec log o n ∧
      (∀ t, answer spec log o n = some t → Consistent (k t) (n + (spec o).width)) ∧
      (answer spec log o n = none → ∀ m, n + (spec o).width ≤ m → log m = none)

/-- `log'` adds to `log` only rows of the operation `o` at `n`. -/
structure Extends (o : O) (n : Int) : Prop where
  keeps : ∀ m row, log m = some row → log' m = some row
  adds : ∀ m row, log' m = some row → log m = none →
    (m = n ∧ 0 < (spec o).width ∧ (spec o).Head row) ∨
      (n < m ∧ m < n + (spec o).width ∧ (spec o).Tail row)

/-- Every operation the program may ever reach satisfies `φ`. -/
def All (φ : O → Prop) : Program O T R → Prop
  | done _ => True
  | op o k => φ o ∧ ∀ t, All φ (k t)

variable {spec log log'}

/-! ## Answers -/

variable {n : Int} {o : O}

theorem answer_of_row {row : Row} (hw : (spec o).width ≠ 0) (h : log n = some row) :
    answer spec log o n = some ((spec o).outcome row) := by
  simp [answer, hw, h]

theorem row_of_answer {t : T o} (hw : (spec o).width ≠ 0) (h : answer spec log o n = some t) :
    ∃ row, log n = some row ∧ t = (spec o).outcome row := by
  simp only [answer, hw, if_false, Option.map_eq_some_iff] at h
  obtain ⟨row, hrow, rfl⟩ := h
  exact ⟨row, hrow, rfl⟩

theorem answer_congr (h : log n = log' n) :
    answer spec log o n = answer spec log' o n := by simp [answer, h]

/-- An answer stays what it is when the log grows. -/
theorem answer_mono {t : T o} (hk : ∀ m row, log m = some row → log' m = some row)
    (h : answer spec log o n = some t) : answer spec log' o n = some t := by
  by_cases hw : (spec o).width = 0
  · simpa [answer, hw] using h
  · simp only [answer, hw, if_false, Option.map_eq_some_iff] at h ⊢
    obtain ⟨row, hrow, rfl⟩ := h
    exact ⟨row, hk n row hrow, rfl⟩

/-! ## Paths -/

namespace Path

variable {p q : Program O T R} {n m : Int}

theorem le (h : Path spec log p n q m) : n ≤ m := by
  induction h with
  | nil => exact le_refl _
  | cons _ _ ih => omega

/-- A path is lengthened by the answer at its end. -/
theorem snoc {k : T o → Program O T R} {t : T o} (h : Path spec log p n q m) (hq : q = op o k)
    (ht : answer spec log o m = some t) : Path spec log p n (k t) (m + (spec o).width) := by
  induction h with
  | nil =>
    subst hq
    exact .cons ht .nil
  | cons hstep _ ih => exact .cons hstep (ih hq ht)

theorem mono (hk : ∀ i row, log i = some row → log' i = some row) (h : Path spec log p n q m) :
    Path spec log' p n q m := by
  induction h with
  | nil => exact .nil
  | cons hstep _ ih => exact .cons (answer_mono hk hstep) ih

/-- **Evaluation follows the path.** -/
theorem eval_eq (h : Path spec log p n q m) : eval spec log p n = eval spec log q m := by
  induction h with
  | nil => rfl
  | cons hstep _ ih => simp only [eval, hstep, ih]

theorem all {φ : O → Prop} (h : Path spec log p n q m) (hp : p.All φ) : q.All φ := by
  induction h with
  | nil => exact hp
  | cons _ _ ih => exact ih (hp.2 _)

theorem consistent (h : Path spec log p n q m) (hc : Consistent spec log p n) :
    Consistent spec log q m := by
  induction h with
  | nil => exact hc
  | cons hstep _ ih => exact ih (hc.2.1 _ hstep)

end Path

/-! ## Consistency -/

theorem owned_of_empty (h : ∀ m, n ≤ m → log m = none) : Owned spec log o n where
  head _ row hrow := by simp [h n le_rfl] at hrow
  tail i hi _ row hrow := by simp [h i (by omega)] at hrow

/-- A log without rows from `n` on is consistent with every program started there. -/
theorem consistent_of_empty : ∀ (p : Program O T R) (n : Int), (∀ m, n ≤ m → log m = none) →
    Consistent spec log p n
  | done _, _, h => h
  | op o k, n, h => by
    have hlater : ∀ m, n + (spec o).width ≤ m → log m = none := fun m hm => h m (by omega)
    exact ⟨owned_of_empty h, fun t _ => consistent_of_empty (k t) _ hlater, fun _ => hlater⟩

/-- Consistency from slot `n` only looks at the slots from `n` on. -/
theorem consistent_congr : ∀ (p : Program O T R) (n : Int), (∀ m, n ≤ m → log m = log' m) →
    Consistent spec log p n → Consistent spec log' p n
  | done _, n, h, hc => fun m hm => (h m hm) ▸ hc m hm
  | op o k, n, h, hc => by
    obtain ⟨hown, hsome, hnone⟩ := hc
    have hans : answer spec log o n = answer spec log' o n := answer_congr (h n le_rfl)
    refine ⟨⟨fun hw row hrow => ?_, fun i hi hi' row hrow => ?_⟩, fun t ht => ?_, fun ht m hm => ?_⟩
    · exact hown.head hw row (by rw [h n le_rfl, hrow])
    · exact hown.tail i hi hi' row (by rw [h i (by omega), hrow])
    · exact consistent_congr (k t) _ (fun m hm => h m (by omega)) (hsome t (hans.trans ht))
    · exact (h m (by omega)) ▸ hnone (hans.trans ht) m hm

theorem Extends.refl : Extends spec log log o n where
  keeps _ _ h := h
  adds m row h h' := by
    rw [h'] at h
    cases h

theorem Extends.of_insert {m : Int} {row : Row} (hnone : log m = none)
    (hlog : ∀ i, log' i = if i = m then some row else log i)
    (hrow : (m = n ∧ 0 < (spec o).width ∧ (spec o).Head row) ∨
      (n < m ∧ m < n + (spec o).width ∧ (spec o).Tail row)) :
    Extends spec log log' o n where
  keeps i r h := by
    rw [hlog, if_neg, h]
    rintro rfl
    rw [hnone] at h
    cases h
  adds i r h h' := by
    rw [hlog] at h
    split at h
    · next hi =>
        cases h
        exact hi ▸ hrow
    · rw [h'] at h
      cases h

/-- A log grown by `o` at `n` differs from the old one in the slots of `o` only. -/
theorem Extends.eq_off (h : Extends spec log log' o n) {m : Int}
    (hm : m < n ∨ n + (spec o).width ≤ m) : log m = log' m := by
  cases hl : log m with
  | some row => rw [h.keeps m row hl]
  | none =>
    cases hl' : log' m with
    | none => rfl
    | some row =>
      rcases h.adds m row hl' hl with ⟨rfl, hw, _⟩ | ⟨h₁, h₂, _⟩ <;> omega

theorem Extends.owned (h : Extends spec log log' o n) (hown : Owned spec log o n) :
    Owned spec log' o n where
  head hw row hrow := by
    cases hl : log n with
    | some row' =>
      have := (h.keeps n row' hl).symm.trans hrow
      exact hown.head hw row (hl.trans this)
    | none =>
      rcases h.adds n row hrow hl with ⟨_, _, hhead⟩ | ⟨hlt, _, _⟩
      · exact hhead
      · exact absurd hlt (lt_irrefl n)
  tail i hi hi' row hrow := by
    cases hl : log i with
    | some row' =>
      have := (h.keeps i row' hl).symm.trans hrow
      exact hown.tail i hi hi' row (hl.trans this)
    | none =>
      rcases h.adds i row hrow hl with ⟨rfl, _, _⟩ | ⟨_, _, htail⟩
      · exact absurd hi (lt_irrefl _)
      · exact htail

/-- **Rows added by the operation at the end of a path keep the log consistent.** -/
theorem consistent_extends {p q : Program O T R} {m : Int} {k : T o → Program O T R}
    (hpath : Path spec log p n q m) (hq : q = op o k) (hext : Extends spec log log' o m)
    (hc : Consistent spec log p n) : Consistent spec log' p n := by
  induction hpath with
  | @nil p n =>
    subst hq
    obtain ⟨hown, hsome, hnone⟩ := hc
    have hlater : ∀ i, n + (spec o).width ≤ i → log i = log' i := fun i hi => hext.eq_off (.inr hi)
    cases hans : answer spec log o n with
    | some t =>
      have hans' := answer_mono hext.keeps hans
      refine ⟨hext.owned hown, fun t' ht' => ?_, fun h => ?_⟩
      · obtain rfl : t = t' := Option.some.inj (hans'.symm.trans ht')
        exact consistent_congr _ _ hlater (hsome t hans)
      · rw [hans'] at h
        cases h
    | none =>
      -- The path ends at an operation without a row: past its slots both logs are empty.
      have hempty : ∀ i, n + (spec o).width ≤ i → log' i = none := fun i hi =>
        (hlater i hi) ▸ hnone hans i hi
      exact ⟨hext.owned hown, fun _ _ => consistent_of_empty _ _ hempty, fun _ => hempty⟩
  | @cons o₁ k₁ n m q t hstep hrest ih =>
    obtain ⟨hown, hsome, -⟩ := hc
    have hle := hrest.le
    have hbefore : ∀ i, i < m → log i = log' i := fun i hi => hext.eq_off (.inl hi)
    have hans' := answer_mono hext.keeps hstep
    refine ⟨⟨fun hw row hrow => ?_, fun i hi hi' row hrow => ?_⟩, fun t' ht' => ?_, fun h => ?_⟩
    · exact hown.head hw row (by rw [hbefore n (by omega), hrow])
    · exact hown.tail i hi hi' row (by rw [hbefore i (by omega), hrow])
    · obtain rfl : t = t' := Option.some.inj (hans'.symm.trans ht')
      exact ih hq hext (hsome t hstep)
    · rw [hans'] at h
      cases h

/-- The log up to slot `m`. -/
def cut (log : Int → Option Row) (m n : Int) : Option Row := if n < m then log n else none

/-- **A log that is cut off stays consistent**, wherever it is cut. -/
theorem consistent_cut (m : Int) : ∀ (p : Program O T R) (n : Int), Consistent spec log p n →
    Consistent spec (cut log m) p n
  | done _, n, h => fun i hi => by rw [cut, h i hi, ite_self]
  | op o k, n, ⟨hown, hsome, hnone⟩ => by
    have hkept (i : Int) (row : Row) (hrow : cut log m i = some row) : log i = some row := by
      rw [cut] at hrow
      split_ifs at hrow
      exact hrow
    refine ⟨⟨fun hw row hrow => hown.head hw row (hkept n row hrow), fun i hi hi' row hrow =>
      hown.tail i hi hi' row (hkept i row hrow)⟩, fun t ht => ?_, fun ht i hi => ?_⟩
    · exact consistent_cut m (k t) _ (hsome t (answer_mono hkept ht))
    · -- Behind an operation without an answer the log is cut off, or has come to its end.
      rw [cut]
      split_ifs with him
      · have hn : log n = cut log m n := (if_pos (by omega)).symm
        exact hnone ((answer_congr hn).trans ht) i hi
      · rfl

/-! ## Courses -/

section

variable (width : O → Nat) (answers : Int → (o : O) → T o)

/-- With the answers given, the program `p` at slot `n` comes to the program `q` at slot `m`. -/
inductive Course : Program O T R → Int → Program O T R → Int → Prop where
  | nil {p : Program O T R} {n : Int} : Course p n p n
  | cons {o : O} {k : T o → Program O T R} {n m : Int} {q : Program O T R}
      (rest : Course (k (answers n o)) (n + width o) q m) : Course (op o k) n q m

/-- What the program ends with. -/
def result : Program O T R → Int → R
  | done r, _ => r
  | op o k, n => result (k (answers n o)) (n + width o)

end

namespace Course

variable {width : O → Nat} {answers : Int → (o : O) → T o} {p q q' : Program O T R} {n m m' : Int}

theorem le (h : Course width answers p n q m) : n ≤ m := by
  induction h with
  | nil => exact le_refl _
  | cons _ ih => omega

variable {k : T o → Program O T R}

theorem snoc (h : Course width answers p n q m) (hq : q = op o k) :
    Course width answers p n (k (answers m o)) (m + width o) := by
  induction h with
  | nil =>
    subst hq
    exact .cons .nil
  | cons _ ih => exact .cons (ih hq)

theorem result_eq (h : Course width answers p n q m) :
    result width answers p n = result width answers q m := by
  induction h with
  | nil => rfl
  | cons _ ih => rw [result, ih]

/-- **There is one course**: of two points on it, one comes before the other. -/
theorem linear (h : Course width answers p n q m) (h' : Course width answers p n q' m') :
    Course width answers q m q' m' ∨ Course width answers q' m' q m := by
  induction h with
  | nil => exact .inl h'
  | cons rest ih => cases h' with
    | nil => exact .inr (.cons rest)
    | cons rest' => exact ih rest'

/-- Of two operations on the course, one comes after the other, or they are one. -/
theorem trichotomy {o' : O} {k' : T o' → Program O T R} (h : Course width answers p n (op o k) m)
    (h' : Course width answers p n (op o' k') m') :
    (op o k = op o' k' ∧ m = m') ∨
      Course width answers (k (answers m o)) (m + width o) (op o' k') m' ∨
      Course width answers (k' (answers m' o')) (m' + width o') (op o k) m := by
  obtain hnext | hnext := h.linear h'
  · cases hnext with
    | nil => exact .inl ⟨rfl, rfl⟩
    | cons rest => exact .inr (.inl rest)
  · cases hnext with
    | nil => exact .inl ⟨rfl, rfl⟩
    | cons rest => exact .inr (.inr rest)

end Course

end Program
