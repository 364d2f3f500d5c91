import Durare.Machinery.Table
import Durare.Machinery.Interleave

/-!
# Machinery/Snapshots — transactions that read a snapshot

Committed rows carry the number of the commit that wrote them.  A transaction reads what is
committed when its statement runs, or, under repeatable read, what was committed at its first
statement, and in both cases its own writes.  It locks the rows it is going to write.  A row that
somebody else has locked is not waited for, and a row written since the snapshot cannot be locked
any more: the first updater wins.  Statements that fail end their transaction.

Snapshots do not make transactions serializable: two of them may count the same rows, find room, and
each take a row that the other does not touch.

* `Sql.Exec` — what a statement does; `sessions` — any number of programs over one database, with
  rows arriving between their statements.
* `WithinRoom` — a transaction that has taken rows has taken no more than its snapshot had room for,
  and nobody else has taken any since; `capped_of_run`.
-/

universe u v

namespace Snapshots

open List Option

/-! ## The database -/

/-- Rows, and the commit that wrote each. -/
structure Version (κ : Type u) (α : Type v) where
  rows : Table κ α := ∅
  stamps : κ → Nat := fun _ => 0

/-- What all transactions share: the committed rows, how many commits there were, the rows locked by
transactions in progress, and tables `ρ` that are only read. -/
structure Shared (κ : Type u) (α : Type v) (ρ : Type) where
  latest : Version κ α
  commits : Nat := 0
  locked : List κ := []
  others : ρ

inductive Isolation where
  | readCommitted
  | repeatableRead

/-- A transaction in progress. -/
structure Transaction (κ : Type u) (α : Type v) where
  isolation : Isolation := .readCommitted
  snapshot : Option (Version κ α) := none
  locks : List κ := []
  writes : Table κ α := ∅

/-- Why a statement failed: its row is locked, its row was written since the snapshot, or the
connection is gone. -/
inductive Failure where
  | locked
  | changed
  | lost

/-- What a locking read does with rows that others have locked. -/
inductive LockWait where
  | skipLocked
  | nowait
  deriving DecidableEq

/-- The statements of a transaction. -/
inductive Sql (κ α ρ : Type) : Type 1 where
  | begin
  | setTransaction (level : Isolation)
  | select (β : Type) (query : Table κ α → ρ → β)
  | selectForUpdate (wait : LockWait) (p : α → Bool) (le : α → α → Bool) (limit : Nat)
  | update (keys : List κ) (p : α → Bool) (f : α → α)
  | commit
  | rollback

/-- What a statement returns. -/
def Sql.Result {κ α ρ : Type} : Sql κ α ρ → Type
  | .select β _ => β
  | .selectForUpdate _ _ _ _ => List κ
  | .update _ _ _ => List α
  | _ => Unit

abbrev Sql.Answer {κ α ρ : Type} (s : Sql κ α ρ) : Type := Except Failure s.Result

variable {κ α ρ : Type} [DecidableEq κ]

/-! ## Statements -/

/-- Commit rows. -/
def Shared.apply (db : Shared κ α ρ) (writes : Table κ α) : Shared κ α ρ :=
  { db with
    latest :=
      { rows := writes ∪ db.latest.rows
        stamps := fun k => if (writes.lookup k).isSome then db.commits + 1 else db.latest.stamps k }
    commits := db.commits + 1 }

/-- The locks of a transaction, if there is one. -/
def locksOf : Option (Transaction κ α) → List κ
  | some tx => tx.locks
  | none => []

/-- Give up the locks of a transaction. -/
def Shared.release (db : Shared κ α ρ) (tx : Option (Transaction κ α)) : Shared κ α ρ :=
  { db with locked := db.locked.filter fun k => k ∉ locksOf tx }

namespace Transaction

variable (tx : Transaction κ α) (db : Shared κ α ρ)

/-- The version a statement reads. -/
def view : Version κ α := tx.snapshot.getD db.latest

/-- The rows a statement reads: the version, with the transaction's own writes. -/
def visible : Table κ α := tx.writes ∪ (tx.view db).rows

/-- Under repeatable read the first statement fixes the version for all. -/
def pin : Transaction κ α :=
  match tx.isolation with
  | .repeatableRead => { tx with snapshot := some (tx.view db) }
  | .readCommitted => tx

/-- Somebody else has locked the row. -/
def lockedByOther (k : κ) : Bool := k ∈ db.locked && k ∉ tx.locks

/-- Why a row cannot be locked. -/
def obstacle (k : κ) : Option Failure :=
  if tx.lockedByOther db k then some .locked
  else if (tx.view db).stamps k = db.latest.stamps k then none else some .changed

/-- Add locks. -/
def lock (keys : List κ) : Transaction κ α :=
  { tx with locks := keys.filter (· ∉ tx.locks) ++ tx.locks }

/-- The keys a locking read may come upon: the first `limit` rows that pass, in an order that
respects `le`; rows that `le` does not tell apart come in any order. -/
def Takes (wait : LockWait) (p : α → Bool) (le : α → α → Bool) (limit : Nat) (keys : List κ) :
    Prop :=
  ∃ order : List (Σ _ : κ, α),
    order.Perm ((tx.visible db).entries.filter fun e =>
      p e.2 && !(wait = .skipLocked && tx.lockedByOther db e.1)) ∧
    order.Pairwise (fun a b => le a.2 b.2 = true) ∧ keys = (order.take limit).map (·.1)

/-- The rows an update changes. -/
def targets (keys : List κ) (p : α → Bool) : List (Σ _ : κ, α) :=
  (tx.visible db).entries.filter fun e => e.1 ∈ keys && p e.2

end Transaction

/-- **What a statement does** to the database and to its transaction.  An update of a row that
somebody else has locked waits: there is no step for it. -/
inductive Sql.Exec : (s : Sql κ α ρ) → Shared κ α ρ → Option (Transaction κ α) → s.Answer →
    Shared κ α ρ → Option (Transaction κ α) → Prop where
  | begin {db : Shared κ α ρ} : Exec .begin db none (.ok ()) db (some {})
  | setTransaction {level : Isolation} {db : Shared κ α ρ} {tx : Transaction κ α} :
      Exec (.setTransaction level) db (some tx) (.ok ()) db (some { tx with isolation := level })
  | select {β : Type} {query : Table κ α → ρ → β} {db : Shared κ α ρ} {tx : Transaction κ α} :
      Exec (.select β query) db (some tx) (.ok (query (tx.visible db) db.others)) db
        (some (tx.pin db))
  | lock {wait : LockWait} {p : α → Bool} {le : α → α → Bool} {limit : Nat} {db : Shared κ α ρ}
      {tx : Transaction κ α} {keys : List κ} (hkeys : tx.Takes db wait p le limit keys)
      (hfree : keys.findSome? (tx.obstacle db) = none) :
      Exec (.selectForUpdate wait p le limit) db (some tx) (.ok keys)
        { db with locked := keys ++ db.locked } (some ((tx.pin db).lock keys))
  | refuse {wait : LockWait} {p : α → Bool} {le : α → α → Bool} {limit : Nat} {db : Shared κ α ρ}
      {tx : Transaction κ α} {keys : List κ} {failure : Failure}
      (hkeys : tx.Takes db wait p le limit keys)
      (hfirst : keys.findSome? (tx.obstacle db) = some failure) :
      Exec (.selectForUpdate wait p le limit) db (some tx) (.error failure) (db.release (some tx))
        none
  | update {keys : List κ} {p : α → Bool} {f : α → α} {db : Shared κ α ρ} {tx : Transaction κ α}
      (hfree : ∀ e ∈ tx.targets db keys p, tx.obstacle db e.1 = none) :
      Exec (.update keys p f) db (some tx) (.ok ((tx.targets db keys p).map fun e => f e.2))
        { db with locked := (tx.targets db keys p).map (·.1) ++ db.locked }
        (some { (tx.pin db).lock ((tx.targets db keys p).map (·.1)) with
          writes := (tx.targets db keys p).foldl (fun t e => t.insert e.1 (f e.2)) tx.writes })
  | conflict {keys : List κ} {p : α → Bool} {f : α → α} {db : Shared κ α ρ} {tx : Transaction κ α}
      {e : Σ _ : κ, α} (htarget : e ∈ tx.targets db keys p)
      (hchanged : (tx.view db).stamps e.1 ≠ db.latest.stamps e.1) :
      Exec (.update keys p f) db (some tx) (.error .changed) (db.release (some tx)) none
  | commit {db : Shared κ α ρ} {tx : Transaction κ α} :
      Exec .commit db (some tx) (.ok ()) ((db.apply tx.writes).release (some tx)) none
  | rollback {db : Shared κ α ρ} {tx : Option (Transaction κ α)} :
      Exec .rollback db tx (.ok ()) (db.release tx) none
  | lost {s : Sql κ α ρ} {db : Shared κ α ρ} {tx : Option (Transaction κ α)} :
      Exec s db tx (.error .lost) (db.release tx) none

/-! ## Sessions -/

/-- A program at a point of its execution, and its transaction. -/
structure Session (κ α ρ β : Type) where
  code : Proc (Sql κ α ρ) Sql.Answer β
  tx : Option (Transaction κ α)

/-- What a statement does, as a step of a program. -/
def execOn (s : Sql κ α ρ) (w : Shared κ α ρ × Option (Transaction κ α)) (r : s.Answer)
    (w' : Shared κ α ρ × Option (Transaction κ α)) : Prop := s.Exec w.1 w.2 r w'.1 w'.2

/-- **Any number of sessions** that run some programs, with rows that arrive at new keys. -/
def sessions {β : Type} (programs : Proc (Sql κ α ρ) Sql.Answer β → Prop) (arrives : α → Prop) :
    Threads (Session κ α ρ β) (Shared κ α ρ)
      (Option (Proc.Event (Sql κ α ρ) Sql.Answer (Shared κ α ρ × Option (Transaction κ α)))) where
  step t db l t' db' new := Proc.Step execOn t.code (db, t.tx) l t'.code (db', t'.tx) ∧ new = []
  start _ t := programs t.code ∧ t.tx = none
  env db db' := ∃ k a, arrives a ∧ db.latest.rows.lookup k = none ∧
    db' = db.apply (AList.insert k a ∅)

/-! ## Stamps -/

section

variable {db db' : Shared κ α ρ} {S : Version κ α}

/-- A version that was once the latest: where its stamp is still the latest one, so is its row. -/
structure Coherent (S : Version κ α) (db : Shared κ α ρ) : Prop where
  past : ∀ k, S.stamps k ≤ db.commits
  same : ∀ k, S.stamps k = db.latest.stamps k → S.rows.lookup k = db.latest.rows.lookup k

omit [DecidableEq κ] in
theorem Coherent.congr [DecidableEq κ] (h : Coherent S db) (hlatest : db'.latest = db.latest)
    (hcommits : db'.commits = db.commits) : Coherent S db' := by
  refine ⟨fun k => ?_, fun k hk => ?_⟩
  · rw [hcommits]
    exact h.past k
  · rw [hlatest] at hk ⊢
    exact h.same k hk

theorem lookup_apply (db : Shared κ α ρ) (writes : Table κ α) (k : κ) :
    (db.apply writes).latest.rows.lookup k =
      (writes.lookup k).or (db.latest.rows.lookup k) := by
  change (writes ∪ db.latest.rows).lookup k = _
  by_cases hk : k ∈ writes
  · rw [AList.lookup_union_left hk]
    obtain ⟨a, ha⟩ := isSome_iff_exists.mp (AList.lookup_isSome.mpr hk)
    rw [ha]
    rfl
  · rw [AList.lookup_union_right hk, AList.lookup_eq_none.mpr hk]
    rfl

/-- A version stays coherent: what is written gets a new stamp. -/
theorem Coherent.apply (h : Coherent S db) (writes : Table κ α) : Coherent S (db.apply writes) := by
  refine ⟨fun k => Nat.le_succ_of_le (h.past k), fun k hk => ?_⟩
  have hpast := h.past k
  rw [lookup_apply]
  cases hwrite : writes.lookup k with
  | none =>
    simp only [Shared.apply, hwrite] at hk
    exact h.same k hk
  | some a =>
    simp only [Shared.apply, hwrite, isSome_some, if_true] at hk
    omega

theorem coherent_apply (h : Coherent db.latest db) (writes : Table κ α) :
    Coherent (db.apply writes).latest (db.apply writes) := by
  refine ⟨fun k => ?_, fun _ _ => rfl⟩
  have hpast := h.past k
  simp only [Shared.apply]
  split <;> omega

end

/-! ## Room under a cap -/

variable {keys : List κ} {p : α → Bool} {s : Sql κ α ρ} {tx' : Option (Transaction κ α)}
  {writes : Table κ α} {r : s.Answer}

section

variable (counted : α → Bool) (cap : Int)

/-- How many rows count. -/
def Version.count (S : Version κ α) : Int := S.rows.values.countP counted

/-- A row that stands against what the snapshot of `tx` counted: somebody else has it locked, or it
came to count since. -/
def Transaction.Contended (tx : Transaction κ α) (db : Shared κ α ρ) (k : κ) : Prop :=
  tx.lockedByOther db k ∨ ∃ a, db.latest.rows.lookup k = some a ∧ counted a ∧
    (tx.view db).stamps k ≠ db.latest.stamps k

/-- **A locking read runs into its rivals**: if there is a row that stands against its count, one of
the rows it comes upon is such a row. -/
def MeetsRivals (db : Shared κ α ρ) (tx : Option (Transaction κ α)) : Sql κ α ρ → Prop
  | .selectForUpdate wait p le limit => ∀ t keys, tx = some t → t.Takes db wait p le limit keys →
      keys ≠ [] → (∃ k, t.Contended counted db k) → ∃ k ∈ keys, t.Contended counted db k
  | _ => True

/-- A program takes rows once, at most as many as the rows counted in its snapshot leave room for,
and changes only rows it has taken. -/
def Claims (tx : Option (Transaction κ α)) : Sql κ α ρ → Prop
  | .selectForUpdate _ _ _ limit => ∀ t, tx = some t → t.locks = [] ∧ t.writes = ∅ ∧
      ∃ S, t.snapshot = some S ∧ S.count counted + limit ≤ cap
  | .update keys _ _ => ∀ t, tx = some t → ∀ k ∈ keys, k ∈ t.locks
  | _ => True

/-- Programs that keep to their claims, whatever the others do to the database. -/
def claiming : Proc.Judge (Sql κ α ρ) Sql.Answer (Shared κ α ρ × Option (Transaction κ α)) where
  handle := execOn
  rely w w' := w'.2 = w.2
  guar s w _ _ := Claims counted cap w.2 s

/-- **A transaction under the cap.** -/
structure WithinRoom (db : Shared κ α ρ) (tx : Transaction κ α) : Prop where
  coherent : ∀ S, tx.snapshot = some S → Coherent S db
  written : ∀ k, (tx.writes.lookup k).isSome → k ∈ tx.locks
  room : tx.locks ≠ [] → ∃ S, tx.snapshot = some S ∧ S.count counted + tx.locks.length ≤ cap ∧
    ∀ k a, db.latest.rows.lookup k = some a → counted a → S.stamps k = db.latest.stamps k

variable {counted cap} {db db' : Shared κ α ρ} {tx : Transaction κ α} {S T : Version κ α}

theorem count_le (h : ∀ k a, T.rows.lookup k = some a → counted a → S.rows.lookup k = some a) :
    T.count counted ≤ S.count counted := by
  have hsub : T.rows.holders counted ⊆ S.rows.holders counted := by
    intro k hk
    obtain ⟨a, ha, hc⟩ := AList.mem_holders.mp hk
    exact AList.mem_holders.mpr ⟨a, h k a ha hc, hc⟩
  have hcard := Finset.card_le_card hsub
  rw [AList.card_holders, AList.card_holders] at hcard
  exact Int.ofNat_le.mpr hcard

/-- A commit adds at most the rows it writes. -/
theorem count_apply_le (hkeys : ∀ k, (writes.lookup k).isSome → k ∈ keys) :
    (db.apply writes).latest.count counted ≤ db.latest.count counted + keys.length := by
  have hsub : (db.apply writes).latest.rows.holders counted ⊆
      db.latest.rows.holders counted ∪ keys.toFinset := by
    intro k hk
    obtain ⟨a, ha, hc⟩ := AList.mem_holders.mp hk
    rw [lookup_apply] at ha
    rw [Finset.mem_union, List.mem_toFinset]
    cases hwrite : writes.lookup k with
    | none =>
      rw [hwrite] at ha
      exact .inl (AList.mem_holders.mpr ⟨a, ha, hc⟩)
    | some b => exact .inr (hkeys k (by simp [hwrite]))
  have hcard := (Finset.card_le_card hsub).trans (Finset.card_union_le _ _)
  rw [AList.card_holders, AList.card_holders] at hcard
  have hlength := keys.toFinset_card_le
  simp only [Version.count]
  omega

theorem count_apply_of_uncounted (hwrites : ∀ k a, writes.lookup k = some a → counted a = false) :
    (db.apply writes).latest.count counted ≤ db.latest.count counted := by
  refine count_le fun k a ha hc => ?_
  rw [lookup_apply] at ha
  cases hwrite : writes.lookup k with
  | none => simpa [hwrite] using ha
  | some b =>
    obtain rfl : b = a := by simpa [hwrite] using ha
    exact absurd hc (by simp [hwrites k b hwrite])

theorem WithinRoom.congr (h : WithinRoom counted cap db tx) (hlatest : db'.latest = db.latest)
    (hcommits : db'.commits = db.commits) : WithinRoom counted cap db' tx := by
  refine ⟨fun S hS => (h.coherent S hS).congr hlatest hcommits, h.written, fun hlocks => ?_⟩
  obtain ⟨S, hS, hroom, hsame⟩ := h.room hlocks
  rw [hlatest]
  exact ⟨S, hS, hroom, hsame⟩

/-- A transaction that has taken nothing does not care what is committed. -/
theorem WithinRoom.apply_of_idle (h : WithinRoom counted cap db tx) (hlocks : tx.locks = [])
    (writes : Table κ α) : WithinRoom counted cap (db.apply writes) tx :=
  ⟨fun S hS => (h.coherent S hS).apply writes, h.written, fun hne => absurd hlocks hne⟩

/-- Rows that do not count may arrive at any time. -/
theorem WithinRoom.apply_of_uncounted (h : WithinRoom counted cap db tx)
    (hwrites : ∀ k a, writes.lookup k = some a → counted a = false) :
    WithinRoom counted cap (db.apply writes) tx := by
  refine ⟨fun S hS => (h.coherent S hS).apply writes, h.written, fun hlocks => ?_⟩
  obtain ⟨S, hS, hroom, hsame⟩ := h.room hlocks
  refine ⟨S, hS, hroom, fun k a ha hc => ?_⟩
  rw [lookup_apply] at ha
  cases hwrite : writes.lookup k with
  | none =>
    rw [hwrite] at ha
    simpa [Shared.apply, hwrite] using hsame k a ha hc
  | some b =>
    obtain rfl : b = a := by simpa [hwrite] using ha
    exact absurd hc (by simp [hwrites k b hwrite])

/-- **A commit stays under the cap**, or below what was there before. -/
theorem WithinRoom.count_commit (h : WithinRoom counted cap db tx) :
    (db.apply tx.writes).latest.count counted ≤ max cap (db.latest.count counted) := by
  have hadds : (db.apply tx.writes).latest.count counted ≤
      db.latest.count counted + tx.locks.length := count_apply_le h.written
  by_cases hlocks : tx.locks = []
  · rw [hlocks, length_nil] at hadds
    omega
  · obtain ⟨S, hS, hroom, hsame⟩ := h.room hlocks
    have hcount : db.latest.count counted ≤ S.count counted := by
      refine count_le fun k a ha hc => ?_
      rw [(h.coherent S hS).same k (hsame k a ha hc), ha]
    omega

/-! ## One statement -/

omit [DecidableEq κ] in
@[simp] theorem pin_locks : (tx.pin db).locks = tx.locks := by
  unfold Transaction.pin
  split <;> rfl

omit [DecidableEq κ] in
@[simp] theorem pin_writes : (tx.pin db).writes = tx.writes := by
  unfold Transaction.pin
  split <;> rfl

omit [DecidableEq κ] in
theorem pin_snapshot (hS : tx.snapshot = some S) : (tx.pin db).snapshot = some S := by
  unfold Transaction.pin
  split
  · simp [Transaction.view, hS]
  · exact hS

theorem coherent_pin (hdb : Coherent db.latest db) (h : ∀ S, tx.snapshot = some S → Coherent S db)
    (hS : (tx.pin db).snapshot = some S) : Coherent S db := by
  unfold Transaction.pin at hS
  split at hS
  · cases hsnap : tx.snapshot with
    | none =>
      obtain rfl : db.latest = S := by simpa [Transaction.view, hsnap] using hS
      exact hdb
    | some S' =>
      obtain rfl : S' = S := by simpa [Transaction.view, hsnap] using hS
      exact h S' hsnap
  · exact h S hS

theorem WithinRoom.pin (hdb : Coherent db.latest db) (h : WithinRoom counted cap db tx) :
    WithinRoom counted cap db (tx.pin db) := by
  refine ⟨fun S hS => coherent_pin hdb h.coherent hS, fun k hk => ?_, fun hlocks => ?_⟩
  · rw [pin_writes] at hk
    rw [pin_locks]
    exact h.written k hk
  · rw [pin_locks] at hlocks ⊢
    obtain ⟨S, hS, hrest⟩ := h.room hlocks
    exact ⟨S, pin_snapshot hS, hrest⟩

theorem not_contended {wait : LockWait} {le : α → α → Bool} {limit : Nat}
    (hmeets : MeetsRivals counted db (some tx) (.selectForUpdate wait p le limit))
    (hkeys : tx.Takes db wait p le limit keys) (hne : keys ≠ [])
    (hfree : keys.findSome? (tx.obstacle db) = none) (k : κ) : ¬tx.Contended counted db k := by
  intro hk
  obtain ⟨k', hmem, hk'⟩ := hmeets tx keys rfl hkeys hne ⟨k, hk⟩
  have hnone : tx.obstacle db k' = none := findSome?_eq_none_iff.mp hfree k' hmem
  unfold Transaction.obstacle at hnone
  split at hnone
  · cases hnone
  · next hunlocked =>
      obtain hlocked | ⟨a, -, -, hstamp⟩ := hk'
      · exact hunlocked hlocked
      · rw [if_neg hstamp] at hnone
        cases hnone

theorem of_lookup_foldl_insert {f : α → α} {k : κ} {b : α} :
    ∀ {l : List (Σ _ : κ, α)} {t : Table κ α},
    (l.foldl (fun t e => t.insert e.1 (f e.2)) t).lookup k = some b →
      (∃ e ∈ l, e.1 = k ∧ f e.2 = b) ∨ t.lookup k = some b
  | [], t, h => .inr h
  | e :: l, t, h => by
    obtain ⟨e', hmem, hk⟩ | ht := of_lookup_foldl_insert (l := l) h
    · exact .inl ⟨e', mem_cons_of_mem _ hmem, hk⟩
    · by_cases hk : e.1 = k
      · subst hk
        rw [AList.lookup_insert, Option.some.injEq] at ht
        exact .inl ⟨e, mem_cons_self, rfl, ht⟩
      · rw [AList.lookup_insert_ne (Ne.symm hk)] at ht
        exact .inr ht

theorem lock_locks (hkeys : ∀ k ∈ keys, k ∈ tx.locks) : (tx.lock keys).locks = tx.locks := by
  simpa [Transaction.lock] using hkeys

theorem mem_of_mem_targets {e : Σ _ : κ, α} (h : e ∈ tx.targets db keys p) : e.1 ∈ keys := by
  unfold Transaction.targets at h
  simp only [mem_filter, Bool.and_eq_true, decide_eq_true_eq] at h
  exact h.2.1

theorem lock_targets {f : α → α}
    (hclaims : Claims counted cap (some tx) (.update keys p f : Sql κ α ρ)) :
    ((tx.pin db).lock ((tx.targets db keys p).map (·.1))).locks = tx.locks := by
  refine (lock_locks fun k hk => ?_).trans pin_locks
  obtain ⟨e, he, rfl⟩ := mem_map.mp hk
  rw [pin_locks]
  exact hclaims tx rfl e.1 (mem_of_mem_targets he)

/-- **A statement keeps its transaction under the cap.** -/
theorem Sql.Exec.capped {tx : Option (Transaction κ α)} (hx : s.Exec db tx r db' tx')
    (hclaims : Claims counted cap tx s) (hmeets : MeetsRivals counted db tx s)
    (hdb : Coherent db.latest db) (h : ∀ t, tx = some t → WithinRoom counted cap db t) :
    ∀ t, tx' = some t → WithinRoom counted cap db' t := by
  cases hx with
  | begin =>
    rintro _ ⟨rfl⟩
    exact ⟨nofun, nofun, fun hne => absurd rfl hne⟩
  | setTransaction =>
    rintro _ ⟨rfl⟩
    obtain ⟨hcoherent, hwritten, hroom⟩ := h _ rfl
    exact ⟨hcoherent, hwritten, hroom⟩
  | select =>
    rintro _ ⟨rfl⟩
    exact (h _ rfl).pin hdb
  | @lock wait p le limit _ t keys hkeys hfree =>
    rintro _ ⟨rfl⟩
    obtain ⟨hlocks, hwrites, S, hS, hroom⟩ := hclaims t rfl
    have hmine : ((t.pin db).lock keys).locks = keys := by simp [Transaction.lock, hlocks]
    refine ⟨fun S' hS' => ?_, fun k hk => ?_, fun hne => ?_⟩
    · exact (coherent_pin hdb (h t rfl).coherent hS').congr rfl rfl
    · rw [Transaction.lock, pin_writes, hwrites] at hk
      simp at hk
    · rw [hmine] at hne ⊢
      refine ⟨S, pin_snapshot hS, ?_, fun k a ha hc => ?_⟩
      · obtain ⟨order, -, -, rfl⟩ := hkeys
        have hlength : ((order.take limit).map (·.1)).length ≤ limit := by simp
        omega
      · by_contra hstamp
        refine not_contended hmeets hkeys hne hfree k (.inr ⟨a, ha, hc, ?_⟩)
        simpa [Transaction.view, hS] using hstamp
  | @update keys p f _ t hfree =>
    rintro _ ⟨rfl⟩
    have hlocks : ((t.pin db).lock ((t.targets db keys p).map (·.1))).locks = t.locks :=
      lock_targets hclaims
    refine ⟨fun S hS => (coherent_pin hdb (h t rfl).coherent hS).congr rfl rfl, fun k hk => ?_, ?_⟩
    · rw [hlocks]
      obtain ⟨row, hrow⟩ := isSome_iff_exists.mp hk
      obtain ⟨e, he, rfl, -⟩ | hold := of_lookup_foldl_insert hrow
      · exact hclaims t rfl e.1 (mem_of_mem_targets he)
      · exact (h t rfl).written k (isSome_of_eq_some hold)
    · rw [hlocks]
      intro hne
      obtain ⟨S, hS, hrest⟩ := (h t rfl).room hne
      exact ⟨S, pin_snapshot hS, hrest⟩
  | refuse | conflict | commit | rollback | lost => rintro _ ⟨⟩

theorem Sql.Exec.shared {tx : Option (Transaction κ α)} (hx : s.Exec db tx r db' tx') :
    (db'.latest = db.latest ∧ db'.commits = db.commits) ∨
      ∃ t, tx = some t ∧ db'.latest = (db.apply t.writes).latest ∧
        db'.commits = (db.apply t.writes).commits := by
  cases hx with
  | @commit _ t => exact .inr ⟨t, rfl, rfl, rfl⟩
  | _ => exact .inl ⟨rfl, rfl⟩

/-- A statement releases only locks of its own transaction. -/
theorem Sql.Exec.mem_locked {tx : Option (Transaction κ α)} (hx : s.Exec db tx r db' tx') {k : κ}
    (hk : k ∈ db.locked) (hother : k ∉ locksOf tx) : k ∈ db'.locked := by
  have hkept {db : Shared κ α ρ} (hk : k ∈ db.locked) : k ∈ (db.release tx).locked :=
    mem_filter.mpr ⟨hk, by simpa using hother⟩
  cases hx with
  | begin | setTransaction | select => exact hk
  | lock | update => exact mem_append_right _ hk
  | refuse | conflict | rollback | lost => exact hkept hk
  | @commit _ t => exact @hkept (db.apply t.writes) hk

/-- The locks of a transaction are known to the database. -/
theorem Sql.Exec.locks_mem_locked {tx : Option (Transaction κ α)} (hx : s.Exec db tx r db' tx')
    (h : ∀ k ∈ locksOf tx, k ∈ db.locked) : ∀ k ∈ locksOf tx', k ∈ db'.locked := by
  have hlock {t : Transaction κ α} {keys : List κ} (ht : ∀ k ∈ t.locks, k ∈ db.locked) :
      ∀ k ∈ (t.lock keys).locks, k ∈ keys ++ db.locked := by
    intro k hk
    obtain hnew | hold := mem_append.mp hk
    · exact mem_append_left _ (mem_filter.mp hnew).1
    · exact mem_append_right _ (ht k hold)
  cases hx with
  | begin => exact fun _ hk => absurd hk not_mem_nil
  | setTransaction => exact h
  | select => simpa [locksOf] using h
  | lock | update => exact hlock (by simpa [locksOf] using h)
  | refuse | conflict | commit | rollback | lost => exact fun _ hk => absurd hk not_mem_nil

/-- A transaction takes its first rows when nobody else has any. -/
theorem Sql.Exec.first {tx : Option (Transaction κ α)} (hx : s.Exec db tx r db' tx')
    (hclaims : Claims counted cap tx s) (hmeets : MeetsRivals counted db tx s)
    (hbefore : locksOf tx = []) (hafter : locksOf tx' ≠ []) : db.locked = [] := by
  cases hx with
  | begin | refuse | conflict | commit | rollback | lost => exact absurd rfl hafter
  | setTransaction => exact absurd hbefore hafter
  | select => exact absurd (pin_locks.trans hbefore) hafter
  | @lock wait p le limit _ t keys hkeys hfree =>
    have hne : keys ≠ [] := by
      rintro rfl
      exact hafter (by simpa [locksOf, Transaction.lock] using hbefore)
    refine eq_nil_iff_forall_not_mem.mpr fun k hk => ?_
    refine not_contended hmeets hkeys hne hfree k (.inl ?_)
    have hlocks : t.locks = [] := hbefore
    simp [Transaction.lockedByOther, hk, hlocks]
  | @update keys p f _ t hfree => exact absurd ((lock_targets hclaims).trans hbefore) hafter

theorem Sql.Exec.coherent {tx : Option (Transaction κ α)} (hx : s.Exec db tx r db' tx')
    (hdb : Coherent db.latest db) : Coherent db'.latest db' := by
  obtain ⟨hlatest, hcommits⟩ | ⟨t, -, hlatest, hcommits⟩ := hx.shared
  · rw [hlatest]
    exact hdb.congr hlatest hcommits
  · rw [hlatest]
    exact (coherent_apply hdb t.writes).congr hlatest hcommits

theorem Sql.Exec.count_le {tx : Option (Transaction κ α)} (hx : s.Exec db tx r db' tx')
    (h : ∀ t, tx = some t → WithinRoom counted cap db t) :
    db'.latest.count counted ≤ max cap (db.latest.count counted) := by
  obtain ⟨hlatest, -⟩ | ⟨t, ht, hlatest, -⟩ := hx.shared
  · rw [hlatest]
    exact le_max_right _ _
  · rw [hlatest]
    exact (h t ht).count_commit

/-- A statement keeps the other transactions under the cap, if only one has taken rows. -/
theorem WithinRoom.beside {mine mine' : Option (Transaction κ α)} (h : WithinRoom counted cap db tx)
    (hx : s.Exec db mine r db' mine') (hmine : ∀ t, mine = some t → WithinRoom counted cap db t)
    (hapart : locksOf mine = [] ∨ tx.locks = []) : WithinRoom counted cap db' tx := by
  obtain ⟨hlatest, hcommits⟩ | ⟨t, rfl, hlatest, hcommits⟩ := hx.shared
  · exact h.congr hlatest hcommits
  · refine WithinRoom.congr ?_ hlatest hcommits
    obtain hidle | hidle := hapart
    · refine h.apply_of_uncounted fun k a ha => ?_
      have hmem : k ∈ locksOf (some t) := (hmine t rfl).written k (by simp [ha])
      rw [hidle] at hmem
      exact absurd hmem not_mem_nil
    · exact h.apply_of_idle hidle t.writes

/-! ## Whole runs -/

variable {β : Type} {programs : Proc (Sql κ α ρ) Sql.Answer β → Prop} {arrives : α → Prop}
  {bound : Int}

/-- Every transaction is under the cap, at most one has taken rows, every program keeps to its
claims, and the rows that count are within the bound. -/
structure Orderly (counted : α → Bool) (cap bound : Int)
    (c : Pool (Session κ α ρ β) (Shared κ α ρ)) : Prop where
  latest : Coherent c.world.latest c.world
  bounded : c.world.latest.count counted ≤ bound
  capped : ∀ t ∈ c.threads, ∀ tx, t.tx = some tx → WithinRoom counted cap c.world tx
  held : ∀ t ∈ c.threads, ∀ k ∈ locksOf t.tx, k ∈ c.world.locked
  alone : c.threads.Pairwise fun t u => locksOf t.tx = [] ∨ locksOf u.tx = []
  claims : ∀ t ∈ c.threads,
    Proc.Safe (claiming counted cap) t.code (fun _ _ => True) (c.world, t.tx)

/-- Every locking read of a run runs into its rivals. -/
def Meets (counted : α → Bool) (a : Pool (Session κ α ρ β) (Shared κ α ρ))
    (e : Pool.Happens (Session κ α ρ β)
      (Option (Proc.Event (Sql κ α ρ) Sql.Answer (Shared κ α ρ × Option (Transaction κ α))))) :
    Prop :=
  ∀ t ev, e = .ran t (some ev) → MeetsRivals counted a.world t.tx ev.call

omit [DecidableEq κ] in
theorem forall_mem_middle {τ : Type*} {P : τ → Prop} {pre post : List τ} {t : τ} :
    (∀ u ∈ pre ++ t :: post, P u) ↔ P t ∧ ∀ u ∈ pre ++ post, P u := by
  simp only [forall_mem_append, forall_mem_cons]
  exact and_left_comm

omit [DecidableEq κ] in
theorem alone_middle {pre post : List (Session κ α ρ β)} {t : Session κ α ρ β} :
    (pre ++ t :: post).Pairwise (fun t u => locksOf t.tx = [] ∨ locksOf u.tx = []) ↔
      (∀ u ∈ pre ++ post, locksOf t.tx = [] ∨ locksOf u.tx = []) ∧
        (pre ++ post).Pairwise fun t u => locksOf t.tx = [] ∨ locksOf u.tx = [] :=
  (pairwise_middle Or.symm).trans pairwise_cons

variable {post pre : List (Session κ α ρ β)} {t t' : Session κ α ρ β}

theorem Orderly.exec (hcap : cap ≤ bound) (h : Orderly counted cap bound ⟨db, pre ++ t :: post⟩)
    (hx : s.Exec db t.tx r db' t'.tx) (hclaims : Claims counted cap t.tx s)
    (hmeets : MeetsRivals counted db t.tx s)
    (hcode : Proc.Safe (claiming counted cap) t'.code (fun _ _ => True) (db', t'.tx)) :
    Orderly counted cap bound ⟨db', pre ++ t' :: post⟩ := by
  obtain ⟨hcapped, hothers⟩ := forall_mem_middle.mp h.capped
  obtain ⟨hheld, hheld'⟩ := forall_mem_middle.mp h.held
  obtain ⟨hapart, halone⟩ := alone_middle.mp h.alone
  refine ⟨hx.coherent h.latest, ?_, forall_mem_middle.mpr ⟨?_, fun u hu tx htx => ?_⟩,
    forall_mem_middle.mpr ⟨?_, fun u hu k hk => ?_⟩, alone_middle.mpr ⟨fun u hu => ?_, halone⟩,
    forall_mem_middle.mpr ⟨hcode, fun u hu => ?_⟩⟩
  · exact (hx.count_le hcapped).trans (max_le hcap h.bounded)
  · exact hx.capped hclaims hmeets h.latest hcapped
  · refine (hothers u hu tx htx).beside hx hcapped ?_
    simpa [htx, locksOf] using hapart u hu
  · exact hx.locks_mem_locked hheld
  · refine hx.mem_locked (hheld' u hu k hk) fun hmine => ?_
    obtain hidle | hidle := hapart u hu
    · simp [hidle] at hmine
    · simp [hidle] at hk
  · by_cases hafter : locksOf t'.tx = []
    · exact .inl hafter
    · refine .inr ?_
      obtain hbefore | hidle := hapart u hu
      · have hnone : db.locked = [] := hx.first hclaims hmeets hbefore hafter
        refine eq_nil_iff_forall_not_mem.mpr fun k hk => ?_
        simpa [hnone] using hheld' u hu k hk
      · exact hidle
  · exact ((forall_mem_middle.mp h.claims).2 u hu).env (fun hab hbc => hbc.trans hab) rfl

theorem Orderly.silent (h : Orderly counted cap bound ⟨db, pre ++ t :: post⟩) (htx : t'.tx = t.tx)
    (hcode : Proc.Safe (claiming counted cap) t'.code (fun _ _ => True) (db, t'.tx)) :
    Orderly counted cap bound ⟨db, pre ++ t' :: post⟩ := by
  obtain ⟨hcapped, hothers⟩ := forall_mem_middle.mp h.capped
  obtain ⟨hheld, hheld'⟩ := forall_mem_middle.mp h.held
  obtain ⟨hapart, halone⟩ := alone_middle.mp h.alone
  rw [← htx] at hcapped hheld hapart
  exact ⟨h.latest, h.bounded, forall_mem_middle.mpr ⟨hcapped, hothers⟩,
    forall_mem_middle.mpr ⟨hheld, hheld'⟩, alone_middle.mpr ⟨hapart, halone⟩,
    forall_mem_middle.mpr ⟨hcode, (forall_mem_middle.mp h.claims).2⟩⟩

theorem Orderly.arrive {ts : List (Session κ α ρ β)} (h : Orderly counted cap bound ⟨db, ts⟩)
    (hwrites : ∀ k a, writes.lookup k = some a → counted a = false) :
    Orderly counted cap bound ⟨db.apply writes, ts⟩ where
  latest := coherent_apply h.latest writes
  bounded := (count_apply_of_uncounted hwrites).trans h.bounded
  capped t ht tx htx := (h.capped t ht tx htx).apply_of_uncounted hwrites
  held := h.held
  alone := h.alone
  claims t ht := (h.claims t ht).env (fun hab hbc => hbc.trans hab) rfl

/-- **Every step of a run keeps order.** -/
theorem Orderly.step {a b : Pool (Session κ α ρ β) (Shared κ α ρ)}
    {e : Pool.Happens (Session κ α ρ β)
      (Option (Proc.Event (Sql κ α ρ) Sql.Answer (Shared κ α ρ × Option (Transaction κ α))))}
    (hcap : cap ≤ bound)
    (hprograms : ∀ code db, programs code →
      Proc.wp (claiming counted cap) code (fun _ _ => True) (db, none))
    (harrives : ∀ a, arrives a → counted a = false)
    (hs : Pool.Step (sessions programs arrives) a e b) (hmeets : Meets counted a e)
    (h : Orderly counted cap bound a) : Orderly counted cap bound b := by
  cases hs with
  | @run pre post new t t' db db' l hrun =>
    obtain ⟨hstep, rfl⟩ := hrun
    rw [append_nil]
    obtain ⟨hguar, hcode⟩ := Proc.wp_step (J := claiming counted cap) (fun _ => rfl)
      (h.claims t (by simp)) hstep
    cases l with
    | some ev =>
      obtain ⟨hbefore, -, hx⟩ := hstep.event
      have hclaims := hguar ev rfl
      rw [hbefore] at hclaims
      exact h.exec hcap hx hclaims (hmeets t ev rfl) hcode
    | none =>
      obtain ⟨rfl, htx⟩ := Prod.mk.inj hstep.silent
      exact h.silent htx hcode
  | @start ts t db hstart =>
    obtain ⟨hprogram, htx⟩ := hstart
    refine ⟨h.latest, h.bounded, forall_mem_cons.mpr ⟨?_, h.capped⟩,
      forall_mem_cons.mpr ⟨?_, h.held⟩, pairwise_cons.mpr ⟨fun u _ => ?_, h.alone⟩,
      forall_mem_cons.mpr ⟨⟨(db, t.tx), rfl, ?_⟩, h.claims⟩⟩
    · simp [htx]
    · simp [htx, locksOf]
    · exact .inl (by simp [htx, locksOf])
    · rw [htx]
      exact hprograms t.code db hprogram
  | @lose pre post t db =>
    exact ⟨h.latest, h.bounded, (forall_mem_middle.mp h.capped).2,
      (forall_mem_middle.mp h.held).2, (alone_middle.mp h.alone).2,
      (forall_mem_middle.mp h.claims).2⟩
  | @env ts db db' henv =>
    obtain ⟨k, a, ha, -, rfl⟩ := henv
    refine h.arrive fun k' a' hlookup => ?_
    by_cases hk : k' = k
    · subst hk
      rw [AList.lookup_insert] at hlookup
      cases hlookup
      exact harrives a ha
    · rw [AList.lookup_insert_ne hk] at hlookup
      cases hlookup

/-- **The cap holds in every run** in which locking reads run into their rivals: the rows that count
are never more than the cap, or than there were before. -/
theorem capped_of_run (hprograms : ∀ code db, programs code →
      Proc.wp (claiming counted cap) code (fun _ _ => True) (db, none))
    (harrives : ∀ a, arrives a → counted a = false) {rows : Table κ α} {others : ρ}
    {c : Pool (Session κ α ρ β) (Shared κ α ρ)}
    (h : Pool.Run (sessions programs arrives) (fun a e _ => Meets counted a e)
      ⟨⟨{ rows := rows }, 0, [], others⟩, []⟩ c) :
    c.world.latest.count counted ≤
      max cap (Version.count counted { rows := rows : Version κ α }) := by
  refine (h.pool (fun a e b hs hok hinv =>
    Orderly.step (le_max_left _ _) hprograms harrives hs hok hinv) ?_).bounded
  exact ⟨⟨fun _ => Nat.le_refl _, fun _ _ => rfl⟩, le_max_right _ _,
    fun _ ht => absurd ht not_mem_nil, fun _ ht => absurd ht not_mem_nil, .nil,
    fun _ ht => absurd ht not_mem_nil⟩

end

end Snapshots
