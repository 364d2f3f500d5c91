import Durare.Machinery.Snapshots

/-!
# Machinery/Locks — a locked row belongs to one transaction

A transaction that takes rows once, and changes only rows it has taken, owns them until its commit:
nobody else writes them, so what it has read of them is what is committed.

* `OtherCommit` — what all others may commit: anything, except to locked rows.
* `Owned` — a transaction and the rows it has taken, under its own statements (`Sql.Exec.owned`),
  those of others (`Owned.beside`) and commits elsewhere (`Owned.elsewhere`).
* `owners` — any number of such programs, with a note of what each has committed; `Parted` is kept
  along every run.
-/

namespace Snapshots

variable {κ α ρ : Type} [DecidableEq κ]

/-! ## Other writers -/

section

variable {fits : κ → α → Prop} {db db' : Shared κ α ρ} {S : Version κ α}

/-- A commit of somebody else, who has to lock rows too; its rows fit their keys. -/
structure OtherCommit (fits : κ → α → Prop) (db db' : Shared κ α ρ) : Prop where
  locked : db'.locked = db.locked
  commits : db'.commits = db.commits + 1
  rows : ∀ k, (db'.latest.rows.lookup k = db.latest.rows.lookup k ∧
    db'.latest.stamps k = db.latest.stamps k) ∨
      (k ∉ db.locked ∧ db'.latest.stamps k = db.commits + 1)
  fits : ∀ k a, db'.latest.rows.lookup k = some a → fits k a

theorem Coherent.elsewhere (h : Coherent S db) (he : OtherCommit fits db db') : Coherent S db' := by
  refine ⟨fun k => ?_, fun k hk => ?_⟩
  · rw [he.commits]
    exact Nat.le_succ_of_le (h.past k)
  · have hpast := h.past k
    obtain ⟨hrow, hstamp⟩ | ⟨-, hstamp⟩ := he.rows k
    · rw [hrow]
      exact h.same k (hk.trans hstamp)
    · omega

theorem OtherCommit.coherent (he : OtherCommit fits db db') (h : Coherent db.latest db) :
    Coherent db'.latest db' := by
  refine ⟨fun k => ?_, fun _ _ => rfl⟩
  have hpast := h.past k
  have hcommits := he.commits
  obtain ⟨-, hstamp⟩ | ⟨-, hstamp⟩ := he.rows k
  · omega
  · omega

end

/-! ## Rows that are taken -/

variable {k : κ} {s : Sql κ α ρ} {tx' : Option (Transaction κ α)}

section

variable (p : α → Bool) (f : α → α)

/-- A program takes rows that pass `p` once, and changes rows it has taken by `f` once. -/
def TakesOnce (tx : Option (Transaction κ α)) : Sql κ α ρ → Prop
  | .selectForUpdate _ q _ _ => ∀ t, tx = some t → t.locks = [] ∧ t.writes = ∅ ∧
      ∀ a, q a = true → p a = true
  | .update keys _ g => ∀ t, tx = some t → t.writes = ∅ ∧ (∀ k ∈ keys, k ∈ t.locks) ∧ g = f
  | _ => True

/-- **A transaction owns the rows it has taken**: they passed, they are as it has read them, and
what it has written are changes of them. -/
structure Owned (db : Shared κ α ρ) (tx : Transaction κ α) : Prop where
  coherent : ∀ S, tx.snapshot = some S → Coherent S db
  held : ∀ k ∈ tx.locks, k ∈ db.locked
  fresh : ∀ k ∈ tx.locks, (tx.view db).stamps k = db.latest.stamps k
  passed : ∀ k ∈ tx.locks, ∃ a, db.latest.rows.lookup k = some a ∧ p a = true
  writes : ∀ k b, tx.writes.lookup k = some b →
    k ∈ tx.locks ∧ ∃ a, db.latest.rows.lookup k = some a ∧ b = f a

variable {p f} {db db' : Shared κ α ρ} {tx : Transaction κ α}

omit [DecidableEq κ] in
theorem pin_view : (tx.pin db).view db = tx.view db := by
  unfold Transaction.pin
  split
  · rfl
  · rfl

/-- What a transaction without writes sees of a row that nobody has written since. -/
theorem lookup_visible (h : ∀ S, tx.snapshot = some S → Coherent S db) (hwrites : tx.writes = ∅)
    (hfresh : (tx.view db).stamps k = db.latest.stamps k) :
    (tx.visible db).lookup k = db.latest.rows.lookup k := by
  have hview : (tx.visible db).lookup k = (tx.view db).rows.lookup k := by
    rw [Transaction.visible, hwrites, AList.empty_union]
  rw [hview]
  unfold Transaction.view at hfresh ⊢
  cases hsnap : tx.snapshot with
  | none => rfl
  | some S =>
    rw [hsnap] at hfresh
    exact (h S hsnap).same k hfresh

theorem unlocked_of_obstacle (h : tx.obstacle db k = none) :
    tx.lockedByOther db k = false ∧ (tx.view db).stamps k = db.latest.stamps k := by
  unfold Transaction.obstacle at h
  split at h
  · cases h
  · next hlocked =>
      split at h
      · next hstamp => exact ⟨Bool.not_eq_true _ ▸ hlocked, hstamp⟩
      · cases h

theorem Owned.congr_view {tx' : Transaction κ α} (h : Owned p f db tx)
    (hcoherent : ∀ S, tx'.snapshot = some S → Coherent S db) (hview : tx'.view db = tx.view db)
    (hlocks : tx'.locks = tx.locks) (hwrites : tx'.writes = tx.writes) : Owned p f db tx' := by
  refine ⟨hcoherent, ?_, ?_, ?_, ?_⟩
  · rw [hlocks]
    exact h.held
  · rw [hlocks, hview]
    exact h.fresh
  · rw [hlocks]
    exact h.passed
  · rw [hlocks, hwrites]
    exact h.writes

theorem lookup_foldl_insert_ne {k : κ} : ∀ {l : List (Σ _ : κ, α)} {t : Table κ α},
    (∀ e ∈ l, e.1 ≠ k) → (l.foldl (fun t e => t.insert e.1 (f e.2)) t).lookup k = t.lookup k
  | [], _, _ => rfl
  | e :: l, t, h => by
    rw [List.foldl_cons, lookup_foldl_insert_ne fun e' he' => h e' (List.mem_cons_of_mem _ he'),
      AList.lookup_insert_ne (h e List.mem_cons_self).symm]

/-- Rows written at different keys are all there. -/
theorem lookup_foldl_insert_mem {e : Σ _ : κ, α} : ∀ {l : List (Σ _ : κ, α)} {t : Table κ α},
    l.NodupKeys → e ∈ l → (l.foldl (fun t e => t.insert e.1 (f e.2)) t).lookup e.1 = some (f e.2)
  | e' :: l, t, hnodup, he => by
    obtain ⟨hnew, hrest⟩ := List.nodupKeys_cons.mp hnodup
    rcases List.mem_cons.mp he with rfl | he
    · rw [List.foldl_cons, lookup_foldl_insert_ne, AList.lookup_insert]
      rintro e' he' heq
      exact hnew (heq ▸ List.mem_map_of_mem he')
    · exact lookup_foldl_insert_mem (l := l) hrest he

/-- The rows a locking read takes pass its condition. -/
theorem Transaction.Takes.visible {wait : LockWait} {q : α → Bool} {le : α → α → Bool} {limit : Nat}
    {keys : List κ} (h : tx.Takes db wait q le limit keys) (hk : k ∈ keys) :
    ∃ a, (tx.visible db).lookup k = some a ∧ q a = true := by
  obtain ⟨order, hperm, -, rfl⟩ := h
  obtain ⟨e, he, rfl⟩ := List.mem_map.mp hk
  have hmem := hperm.mem_iff.mp (List.mem_of_mem_take he)
  simp only [List.mem_filter, Bool.and_eq_true] at hmem
  exact ⟨e.2, AList.mem_lookup_iff.mpr hmem.1, hmem.2.1⟩

variable {r : s.Answer}

/-- **A transaction owns its rows after each of its statements.** -/
theorem Sql.Exec.owned {tx : Option (Transaction κ α)} (hx : s.Exec db tx r db' tx')
    (hstmt : TakesOnce p f tx s) (hdb : Coherent db.latest db)
    (h : ∀ t, tx = some t → Owned p f db t) : ∀ t, tx' = some t → Owned p f db' t := by
  cases hx with
  | begin =>
    rintro _ ⟨rfl⟩
    exact ⟨nofun, nofun, nofun, nofun, nofun⟩
  | setTransaction =>
    rintro _ ⟨rfl⟩
    exact (h _ rfl).congr_view (h _ rfl).coherent rfl rfl rfl
  | select =>
    rintro _ ⟨rfl⟩
    exact (h _ rfl).congr_view (fun S hS => coherent_pin hdb (h _ rfl).coherent hS) pin_view
      pin_locks pin_writes
  | @lock wait q le limit _ t keys hkeys hfree =>
    rintro _ ⟨rfl⟩
    obtain ⟨hlocks, hwrites, hpass⟩ := hstmt t rfl
    have hmine : ((t.pin db).lock keys).locks = keys := by simp [Transaction.lock, hlocks]
    have hfresh : ∀ k ∈ keys, (t.view db).stamps k = db.latest.stamps k := fun k hk =>
      (unlocked_of_obstacle (List.findSome?_eq_none_iff.mp hfree k hk)).2
    refine ⟨fun S hS => ?_, fun k hk => ?_, fun k hk => ?_, fun k hk => ?_, fun k b hb => ?_⟩
    · exact (coherent_pin hdb (h t rfl).coherent hS).congr rfl rfl
    · rw [hmine] at hk
      exact List.mem_append_left _ hk
    · rw [hmine] at hk
      have hview : ((t.pin db).view db).stamps k = (t.view db).stamps k := by rw [pin_view]
      exact hview.trans (hfresh k hk)
    · rw [hmine] at hk
      obtain ⟨a, ha, hq⟩ := hkeys.visible hk
      rw [lookup_visible (h t rfl).coherent hwrites (hfresh k hk)] at ha
      exact ⟨a, ha, hpass a hq⟩
    · rw [Transaction.lock, pin_writes, hwrites] at hb
      cases hb
  | @update keys q g _ t hfree =>
    rintro _ ⟨rfl⟩
    obtain ⟨hwrites, hkeys, rfl⟩ := hstmt t rfl
    have hlocks : ((t.pin db).lock ((t.targets db keys q).map (·.1))).locks = t.locks := by
      refine (lock_locks fun k hk => ?_).trans pin_locks
      obtain ⟨e, he, rfl⟩ := List.mem_map.mp hk
      rw [pin_locks]
      exact hkeys e.1 (mem_of_mem_targets he)
    have howned := h t rfl
    refine ⟨fun S hS => ?_, fun k hk => ?_, fun k hk => ?_, fun k hk => ?_, fun k b hb => ?_⟩
    · exact (coherent_pin hdb howned.coherent hS).congr rfl rfl
    · rw [hlocks] at hk
      exact List.mem_append_right _ (howned.held k hk)
    · rw [hlocks] at hk
      have hview : ((t.pin db).view db).stamps k = (t.view db).stamps k := by rw [pin_view]
      exact hview.trans (howned.fresh k hk)
    · rw [hlocks] at hk
      exact howned.passed k hk
    · obtain ⟨e, he, rfl, rfl⟩ | hold := of_lookup_foldl_insert hb
      · have hmine : e.1 ∈ t.locks := hkeys e.1 (mem_of_mem_targets he)
        refine ⟨hlocks ▸ hmine, e.2, ?_, rfl⟩
        rw [← lookup_visible howned.coherent hwrites (howned.fresh e.1 hmine)]
        exact AList.mem_lookup_iff.mpr (List.mem_filter.mp he).1
      · rw [hwrites] at hold
        cases hold
  | refuse | conflict | commit | rollback | lost => rintro _ ⟨⟩

theorem Owned.congr (h : Owned p f db tx) (hcoherent : ∀ S, Coherent S db → Coherent S db')
    (hlocked : ∀ k ∈ tx.locks, k ∈ db'.locked)
    (hrows : ∀ k ∈ tx.locks, db'.latest.rows.lookup k = db.latest.rows.lookup k ∧
      db'.latest.stamps k = db.latest.stamps k) : Owned p f db' tx := by
  refine ⟨fun S hS => hcoherent S (h.coherent S hS), hlocked, fun k hk => ?_, fun k hk => ?_,
    fun k b hb => ?_⟩
  · have hfresh := h.fresh k hk
    unfold Transaction.view at hfresh ⊢
    cases hsnap : tx.snapshot with
    | none => rfl
    | some S =>
      rw [hsnap] at hfresh
      exact hfresh.trans (hrows k hk).2.symm
  · rw [(hrows k hk).1]
    exact h.passed k hk
  · obtain ⟨hmine, hrow⟩ := h.writes k b hb
    rw [(hrows k hmine).1]
    exact ⟨hmine, hrow⟩

/-- **A transaction owns its rows while others run statements.** -/
theorem Owned.beside {mine mine' : Option (Transaction κ α)} {g : α → α} (h : Owned p f db tx)
    (hx : s.Exec db mine r db' mine') (hmine : ∀ t, mine = some t → Owned p g db t)
    (hapart : ∀ k ∈ tx.locks, k ∉ locksOf mine) : Owned p f db' tx := by
  have hlocked : ∀ k ∈ tx.locks, k ∈ db'.locked := fun k hk =>
    hx.mem_locked (h.held k hk) (hapart k hk)
  obtain ⟨hlatest, hcommits⟩ | ⟨t, rfl, hlatest, hcommits⟩ := hx.shared
  · refine h.congr (fun S hS => hS.congr hlatest hcommits) hlocked fun k hk => ?_
    rw [hlatest]
    exact ⟨rfl, rfl⟩
  · refine h.congr (fun S hS => (hS.apply t.writes).congr hlatest hcommits) hlocked fun k hk => ?_
    have hunwritten : t.writes.lookup k = none := by
      cases hwrite : t.writes.lookup k with
      | none => rfl
      | some b => exact absurd ((hmine t rfl).writes k b hwrite).1 (hapart k hk)
    rw [hlatest, lookup_apply, hunwritten]
    exact ⟨rfl, by simp [Shared.apply, hunwritten]⟩

theorem Owned.elsewhere {fits : κ → α → Prop} (h : Owned p f db tx) (he : OtherCommit fits db db') :
    Owned p f db' tx := by
  refine h.congr (fun S hS => hS.elsewhere he) (fun k hk => he.locked ▸ h.held k hk) fun k hk => ?_
  obtain hsame | ⟨hfree, -⟩ := he.rows k
  · exact hsame
  · exact absurd (h.held k hk) hfree

theorem Sql.Exec.taken {tx : Option (Transaction κ α)} (hx : s.Exec db tx r db' tx')
    (hstmt : TakesOnce p f tx s) (hk : k ∈ locksOf tx') : k ∈ locksOf tx ∨ k ∉ db.locked := by
  cases hx with
  | begin | refuse | conflict | commit | rollback | lost => exact absurd hk List.not_mem_nil
  | setTransaction => exact .inl hk
  | select => exact .inl (by simpa [locksOf] using hk)
  | @lock wait q le limit _ t keys hkeys hfree =>
    obtain ⟨hlocks, -, -⟩ := hstmt t rfl
    have hmem : k ∈ keys := by simpa [locksOf, Transaction.lock, hlocks] using hk
    obtain ⟨hother, -⟩ := unlocked_of_obstacle (List.findSome?_eq_none_iff.mp hfree k hmem)
    exact .inr (by simpa [Transaction.lockedByOther, hlocks] using hother)
  | @update keys q g _ t hfree =>
    obtain ⟨-, hkeys, -⟩ := hstmt t rfl
    refine .inl ?_
    obtain hnew | hold := List.mem_append.mp hk
    · obtain ⟨e, he, rfl⟩ := List.mem_map.mp (List.mem_filter.mp hnew).1
      exact hkeys e.1 (mem_of_mem_targets he)
    · have hmine : k ∈ (t.pin db).locks := hold
      rw [pin_locks] at hmine
      exact hmine

end

/-! ## Any number of owners -/

/-- A program with what it is about, its transaction, and a note of the rows it has committed. -/
structure Owner (ι κ α ρ β : Type) where
  tag : ι
  code : Proc (Sql κ α ρ) Sql.Answer β
  tx : Option (Transaction κ α)
  committed : Table κ α := ∅

/-- What a program sees. -/
abbrev Owner.View (κ α ρ : Type) := Shared κ α ρ × Option (Transaction κ α) × Table κ α

/-- The rows that a program has committed, after a statement. -/
def note : (s : Sql κ α ρ) → s.Answer → Option (Transaction κ α) → Table κ α → Table κ α
  | .commit, .ok _, some tx, _ => tx.writes
  | _, _, _, committed => committed

/-- What a statement does, noting commits. -/
def execNoting (s : Sql κ α ρ) (w : Owner.View κ α ρ) (r : s.Answer) (w' : Owner.View κ α ρ) :
    Prop := s.Exec w.1 w.2.1 r w'.1 w'.2.1 ∧ w'.2.2 = note s r w.2.1 w.2.2

/-- **Any number of programs** over one database, with commits of others. -/
def owners {ι β : Type} (fits : κ → α → Prop) (programs : ι → Proc (Sql κ α ρ) Sql.Answer β →
    Prop) : Threads (Owner ι κ α ρ β) (Shared κ α ρ)
      (Option (Proc.Event (Sql κ α ρ) Sql.Answer (Owner.View κ α ρ))) where
  step t db l t' db' new := Proc.Step execNoting t.code (db, t.tx, t.committed) l t'.code
    (db', t'.tx, t'.committed) ∧ t'.tag = t.tag ∧ new = []
  start _ t := programs t.tag t.code ∧ t.tx = none ∧ t.committed = ∅
  env := OtherCommit fits

/-- Programs that take rows once, whatever the others do to the database. -/
def taking (p : α → Bool) (f : α → α) :
    Proc.Judge (Sql κ α ρ) Sql.Answer (Owner.View κ α ρ) where
  handle := execNoting
  rely w w' := w'.2 = w.2
  guar s w _ _ := TakesOnce p f w.2.1 s

section

variable {ι β : Type} {p : α → Bool} {change : ι → α → α} {fits : κ → α → Prop}
  {Q : ι → β → Table κ α → Prop} {programs : ι → Proc (Sql κ α ρ) Sql.Answer β → Prop}
  {db db' : Shared κ α ρ}

/-- No row is taken by two transactions, each owns its rows, and every program takes rows once and
returns as `Q` says. -/
structure Parted (p : α → Bool) (change : ι → α → α) (fits : κ → α → Prop)
    (Q : ι → β → Table κ α → Prop) (c : Pool (Owner ι κ α ρ β) (Shared κ α ρ)) : Prop where
  latest : Coherent c.world.latest c.world
  fits : ∀ k a, c.world.latest.rows.lookup k = some a → fits k a
  owned : ∀ t ∈ c.threads, ∀ tx, t.tx = some tx → Owned p (change t.tag) c.world tx
  apart : c.threads.Pairwise fun t u => ∀ k ∈ locksOf t.tx, k ∉ locksOf u.tx
  safe : ∀ t ∈ c.threads, Proc.Safe (taking p (change t.tag)) t.code (fun r w => Q t.tag r w.2.2)
    (c.world, t.tx, t.committed)

omit [DecidableEq κ] in
theorem apart_middle {pre post : List (Owner ι κ α ρ β)} {t : Owner ι κ α ρ β} :
    (pre ++ t :: post).Pairwise (fun t u => ∀ k ∈ locksOf t.tx, k ∉ locksOf u.tx) ↔
      (∀ u ∈ pre ++ post, ∀ k ∈ locksOf t.tx, k ∉ locksOf u.tx) ∧
        (pre ++ post).Pairwise fun t u => ∀ k ∈ locksOf t.tx, k ∉ locksOf u.tx :=
  (List.pairwise_middle fun h k hk hk' => h k hk' hk).trans List.pairwise_cons

theorem Parted.exec {pre post : List (Owner ι κ α ρ β)} {t t' : Owner ι κ α ρ β} {s : Sql κ α ρ}
    {r : s.Answer} (hchange : ∀ i k a, fits k a → fits k (change i a))
    (h : Parted p change fits Q ⟨db, pre ++ t :: post⟩) (htag : t'.tag = t.tag)
    (hx : s.Exec db t.tx r db' t'.tx) (hstmt : TakesOnce p (change t.tag) t.tx s)
    (hsafe : Proc.Safe (taking p (change t.tag)) t'.code (fun r w => Q t.tag r w.2.2)
      (db', t'.tx, t'.committed)) :
    Parted p change fits Q ⟨db', pre ++ t' :: post⟩ := by
  obtain ⟨howned, howned'⟩ := forall_mem_middle.mp h.owned
  obtain ⟨hapart, hapart'⟩ := apart_middle.mp h.apart
  refine ⟨hx.coherent h.latest, fun k a ha => ?_, forall_mem_middle.mpr ⟨?_, fun u hu tx htx => ?_⟩,
    apart_middle.mpr ⟨fun u hu k hk hk' => ?_, hapart'⟩,
    forall_mem_middle.mpr ⟨?_, fun u hu => ?_⟩⟩
  · obtain ⟨hlatest, -⟩ | ⟨tx, htx, hlatest, -⟩ := hx.shared
    · exact h.fits k a (hlatest ▸ ha)
    · have ha' : (db.apply tx.writes).latest.rows.lookup k = some a := hlatest ▸ ha
      rw [lookup_apply] at ha'
      cases hwrite : tx.writes.lookup k with
      | none =>
        rw [hwrite] at ha'
        exact h.fits k a ha'
      | some b =>
        obtain ⟨-, old, hold, rfl⟩ := (howned tx htx).writes k b hwrite
        rw [hwrite] at ha'
        cases ha'
        exact hchange _ k old (h.fits k old hold)
  · rw [htag]
    exact hx.owned hstmt h.latest howned
  · refine (howned' u hu tx htx).beside hx howned fun k hk hmine => hapart u hu k hmine ?_
    rw [htx]
    exact hk
  · obtain hmine | hfree := hx.taken hstmt hk
    · exact hapart u hu k hmine hk'
    · refine hfree ?_
      cases htx : u.tx with
      | none =>
        rw [htx] at hk'
        cases hk'
      | some tx =>
        rw [htx] at hk'
        exact (howned' u hu tx htx).held k hk'
  · rw [htag]
    exact hsafe
  · exact ((forall_mem_middle.mp h.safe).2 u hu).env (fun hab hbc => hbc.trans hab) rfl

/-- **Every step keeps rows with one owner.** -/
theorem Parted.step {a b : Pool (Owner ι κ α ρ β) (Shared κ α ρ)}
    {e : Pool.Happens (Owner ι κ α ρ β)
      (Option (Proc.Event (Sql κ α ρ) Sql.Answer (Owner.View κ α ρ)))}
    (hchange : ∀ i k a, fits k a → fits k (change i a))
    (hprograms : ∀ i code db, programs i code → Proc.wp (taking p (change i)) code
      (fun r w => Q i r w.2.2) (db, none, ∅))
    (hs : Pool.Step (owners fits programs) a e b) (h : Parted p change fits Q a) :
    Parted p change fits Q b := by
  cases hs with
  | @run pre post new t t' db db' l hrun =>
    obtain ⟨hstep, htag, rfl⟩ := hrun
    rw [List.append_nil]
    obtain ⟨hguar, hsafe⟩ := Proc.wp_step (J := taking p (change t.tag)) (fun _ => rfl)
      (h.safe t (by simp)) hstep
    cases l with
    | some ev =>
      obtain ⟨hbefore, -, hx, -⟩ := hstep.event
      have hstmt := hguar ev rfl
      rw [hbefore] at hstmt
      exact h.exec hchange htag hx hstmt hsafe
    | none =>
      obtain ⟨rfl, hrest⟩ := Prod.mk.inj hstep.silent
      obtain ⟨htx, -⟩ := Prod.mk.inj hrest
      obtain ⟨howned, howned'⟩ := forall_mem_middle.mp h.owned
      obtain ⟨hapart, hapart'⟩ := apart_middle.mp h.apart
      rw [← htx] at howned hapart
      rw [← htag] at howned hsafe
      exact ⟨h.latest, h.fits, forall_mem_middle.mpr ⟨howned, howned'⟩,
        apart_middle.mpr ⟨hapart, hapart'⟩,
        forall_mem_middle.mpr ⟨hsafe, (forall_mem_middle.mp h.safe).2⟩⟩
  | @start ts t db hstart =>
    obtain ⟨hprogram, htx, hnote⟩ := hstart
    refine ⟨h.latest, h.fits, List.forall_mem_cons.mpr ⟨?_, h.owned⟩,
      List.pairwise_cons.mpr ⟨fun u _ k hk => ?_, h.apart⟩,
      List.forall_mem_cons.mpr ⟨⟨(db, t.tx, t.committed), rfl, ?_⟩, h.safe⟩⟩
    · simp [htx]
    · rw [htx] at hk
      cases hk
    · rw [htx, hnote]
      exact hprograms t.tag t.code db hprogram
  | @lose pre post t db =>
    exact ⟨h.latest, h.fits, (forall_mem_middle.mp h.owned).2, (apart_middle.mp h.apart).2,
      (forall_mem_middle.mp h.safe).2⟩
  | @env ts db db' henv =>
    exact ⟨henv.coherent h.latest, henv.fits, fun t ht tx htx => (h.owned t ht tx htx).elsewhere
      henv, h.apart, fun t ht => (h.safe t ht).env (fun hab hbc => hbc.trans hab) rfl⟩

/-- **A commit**: its rows are changes of rows that passed until then, and they are what is
committed after it. -/
theorem Parted.commit {a b : Pool (Owner ι κ α ρ β) (Shared κ α ρ)} {t : Owner ι κ α ρ β}
    {w w' : Owner.View κ α ρ} {k : Sql.Answer (.commit : Sql κ α ρ) → Proc (Sql κ α ρ) Sql.Answer β}
    (h : Parted p change fits Q a) (hcode : t.code = .call .commit k)
    (hs : Pool.Step (owners fits programs) a (.ran t (some ⟨.commit, w, .ok (), w'⟩)) b) :
    ∃ writes : Table κ α,
      Proc.Safe (taking p (change t.tag)) (k (.ok ())) (fun r w => Q t.tag r w.2.2)
        (b.world, none, writes) ∧
      ∀ key row, writes.lookup key = some row → b.world.latest.rows.lookup key = some row ∧
        ∃ old, a.world.latest.rows.lookup key = some old ∧ p old = true ∧ row =
          change t.tag old := by
  cases hs with
  | @run pre post new _ t' db db' l hrun =>
    obtain ⟨hstep, htag, rfl⟩ := hrun
    obtain ⟨-, hsafe⟩ := Proc.wp_step (J := taking p (change t.tag)) (fun _ => rfl)
      (h.safe t (by simp)) hstep
    obtain ⟨-, -, hx, hnote⟩ := hstep.event
    have howned := h.owned t (by simp)
    obtain ⟨tag, code, tx, committed⟩ := t
    obtain ⟨tag', code', tx', committed'⟩ := t'
    dsimp only at hcode hnote
    subst hcode
    cases hstep
    cases hx with
    | @commit _ tx =>
      obtain rfl : committed' = tx.writes := hnote
      refine ⟨tx.writes, hsafe, fun key row hrow => ?_⟩
      obtain ⟨hmine, old, hold, rfl⟩ := (howned tx rfl).writes key row hrow
      obtain ⟨_, hold', hpass⟩ := (howned tx rfl).passed key hmine
      obtain rfl := Option.some.inj (hold.symm.trans hold')
      refine ⟨?_, old, hold, hpass, rfl⟩
      change (db.apply tx.writes).latest.rows.lookup key = _
      rw [lookup_apply, hrow]
      rfl

end

end Snapshots
