import Durare.Machinery.Proc

/-!
# Machinery/Interleave — any number of threads over one world

A `Pool` is a world and the threads in it.  `Threads` says what a thread may do in one step — it may
start others — which threads may come in from outside, and how the rest of the system moves the
world.  `Pool.Step` interleaves all of that with the loss of a thread at any point, and
`Pool.Run` is any number of steps that each satisfy a side condition.

* `Pool.Run.pool` — an invariant of every step holds at the end of a run; `Pool.Run.assuming` — and
  before each of its steps.
* `Pool.Run.invariant` — the same for an invariant of the world together with a property of each
  thread, when no step of one thread breaks the property of another.
* `Pool.Run.driveAt` — a run in which one thread is driven by a function.
* `Threads.ofProc` — processes as threads.
-/

universe u v w

/-- What threads in `τ` do to a world in `W`, with steps seen through labels in `L`. -/
structure Threads (τ : Type u) (W : Type v) (L : Type w) where
  /-- one step of a thread, and the threads it starts -/
  step : τ → W → L → τ → W → List τ → Prop
  /-- a thread that may come in from outside -/
  start : W → τ → Prop
  /-- the rest of the system -/
  env : W → W → Prop

/-- A world and the threads running in it. -/
structure Pool (τ : Type u) (W : Type v) where
  world : W
  threads : List τ

namespace Pool

open List

variable {τ : Type u} {W : Type v} {L : Type w}

/-- What happens in one step of a pool: `ran` names the thread before its step. -/
inductive Happens (τ : Type u) (L : Type w) where
  | ran (t : τ) (l : L)
  | started (t : τ)
  | lost
  | env

/-- One step: a thread runs, comes in or is lost, or the rest of the system moves the world. -/
inductive Step (T : Threads τ W L) : Pool τ W → Happens τ L → Pool τ W → Prop where
  | run {pre post new : List τ} {t t' : τ} {w w' : W} {l : L} (h : T.step t w l t' w' new) :
      Step T ⟨w, pre ++ t :: post⟩ (.ran t l) ⟨w', pre ++ t' :: (post ++ new)⟩
  | start {ts : List τ} {t : τ} {w : W} (h : T.start w t) : Step T ⟨w, ts⟩ (.started t) ⟨w, t :: ts⟩
  | lose {pre post : List τ} {t : τ} {w : W} : Step T ⟨w, pre ++ t :: post⟩ .lost ⟨w, pre ++ post⟩
  | env {ts : List τ} {w w' : W} (h : T.env w w') : Step T ⟨w, ts⟩ .env ⟨w', ts⟩

/-- Any number of steps that each satisfy `ok`. -/
def Run (T : Threads τ W L) (ok : Pool τ W → Happens τ L → Pool τ W → Prop) :
    Pool τ W → Pool τ W → Prop :=
  Relation.ReflTransGen fun a b => ∃ e, Step T a e b ∧ ok a e b

variable {T : Threads τ W L} {ok ok' : Pool τ W → Happens τ L → Pool τ W → Prop}

theorem Run.refl (c : Pool τ W) : Run T ok c c := Relation.ReflTransGen.refl

theorem Run.tail {a b c : Pool τ W} {e : Happens τ L} (h : Run T ok a b) (hs : Step T b e c)
    (hok : ok b e c) : Run T ok a c := Relation.ReflTransGen.tail h ⟨e, hs, hok⟩

variable {a : Pool τ W}

theorem Run.enter {w : W} {ts : List τ} (h : Run T ok a ⟨w, ts⟩) {t : τ} (hs : T.start w t)
    (hok : ok ⟨w, ts⟩ (.started t) ⟨w, t :: ts⟩) : Run T ok a ⟨w, t :: ts⟩ :=
  h.tail (.start hs) hok

theorem Run.stepAt {w w' : W} {ts new : List τ} {t t' : τ} {l : L} (h : Run T ok a ⟨w, ts⟩)
    (i : Nat) (ht : ts[i]? = some t) (hs : T.step t w l t' w' new)
    (hok : ok ⟨w, ts⟩ (.ran t l) ⟨w', ts.set i t' ++ new⟩) :
    Run T ok a ⟨w', ts.set i t' ++ new⟩ := by
  obtain ⟨hi, rfl⟩ := List.getElem?_eq_some_iff.mp ht
  have hbefore : ts.take i ++ ts[i] :: ts.drop (i + 1) = ts := by simp
  have hafter : ts.take i ++ t' :: (ts.drop (i + 1) ++ new) = ts.set i t' ++ new := by
    rw [set_eq_take_append_cons_drop, if_pos hi]
    simp
  have hstep : Step T ⟨w, ts.take i ++ ts[i] :: ts.drop (i + 1)⟩ (.ran ts[i] l)
      ⟨w', ts.take i ++ t' :: (ts.drop (i + 1) ++ new)⟩ := .run hs
  rw [hbefore, hafter] at hstep
  exact h.tail hstep hok

/-- Up to `n` steps of one thread, taken as a function says. -/
def drive (next : τ → W → Option (τ × W)) : Nat → τ → W → τ × W
  | 0, t, w => (t, w)
  | n + 1, t, w => match next t w with
    | none => (t, w)
    | some (t', w') => drive next n t' w'

/-- **A thread may be driven**, if its steps satisfy `ok`. -/
theorem Run.driveAt {next : τ → W → Option (τ × W)}
    (hnext : ∀ t w t' w', next t w = some (t', w') → ∃ l, T.step t w l t' w' [])
    (hok : ∀ a t l b, ok a (.ran t l) b) {a : Pool τ W} (i : Nat) :
    ∀ (n : Nat) {w : W} {ts : List τ} {t : τ}, Run T ok a ⟨w, ts⟩ → ts[i]? = some t →
      Run T ok a ⟨(drive next n t w).2, ts.set i (drive next n t w).1⟩
  | 0, w, ts, t, h, ht => by
    obtain ⟨hi, rfl⟩ := List.getElem?_eq_some_iff.mp ht
    rw [drive, set_getElem_self]
    exact h
  | n + 1, w, ts, t, h, ht => by
    rw [drive]
    cases hstep : next t w with
    | none => exact Run.driveAt hnext hok i 0 h ht
    | some x =>
      obtain ⟨l, hl⟩ := hnext t w x.1 x.2 hstep
      have hrun := Run.driveAt hnext hok i n (h.stepAt i ht hl (hok _ _ _ _))
        (by rw [append_nil, getElem?_set_self (List.getElem?_eq_some_iff.mp ht).1])
      rw [append_nil, set_set] at hrun
      exact hrun

theorem Run.mono (hok : ∀ a e b, ok a e b → ok' a e b) {b : Pool τ W} (h : Run T ok a b) :
    Run T ok' a b := by
  induction h with
  | refl => exact .refl _
  | tail _ hlast ih =>
    obtain ⟨e, hs, he⟩ := hlast
    exact ih.tail hs (hok _ e _ he)

/-- **An invariant of every step holds at the end of every run.** -/
theorem Run.pool {Inv : Pool τ W → Prop}
    (hstep : ∀ a e b, Step T a e b → ok a e b → Inv a → Inv b) {c c' : Pool τ W}
    (h : Run T ok c c') (hc : Inv c) : Inv c' := by
  induction h with
  | refl => exact hc
  | tail _ hlast ih =>
    obtain ⟨e, hs, he⟩ := hlast
    exact hstep _ e _ hs he ih

/-- Every step of a run may assume an invariant. -/
theorem Run.assuming {Inv : Pool τ W → Prop}
    (hstep : ∀ a e b, Step T a e b → ok a e b → Inv a → Inv b) {c c' : Pool τ W}
    (h : Run T ok c c') (hc : Inv c) : Run T (fun a e b => ok a e b ∧ Inv a) c c' := by
  induction h with
  | refl => exact .refl _
  | tail hrun hlast ih =>
    obtain ⟨e, hs, he⟩ := hlast
    exact ih.tail hs ⟨he, Run.pool hstep hrun hc⟩

/-- What a step that satisfies `ok` has to keep: the invariant `G` of the world, the property `P` of
the thread that runs and of the threads it starts, and the property of every other thread. -/
structure Keeps (T : Threads τ W L) (ok : Pool τ W → Happens τ L → Pool τ W → Prop) (G : W → Prop)
    (P : τ → W → Prop) : Prop where
  start : ∀ {t w}, T.start w t → G w → P t w
  env : ∀ {w w'}, T.env w w' → G w → G w' ∧ ∀ t, P t w → P t w'
  run : ∀ {pre post new t t' w w' l}, T.step t w l t' w' new →
    ok ⟨w, pre ++ t :: post⟩ (.ran t l) ⟨w', pre ++ t' :: (post ++ new)⟩ → G w → P t w →
    G w' ∧ P t' w' ∧ (∀ n ∈ new, P n w') ∧ ∀ u ∈ pre ++ post, P u w → P u w'

/-- **The invariant of the world and the property of every thread hold at the end of a run.** -/
theorem Run.invariant {G : W → Prop} {P : τ → W → Prop} (hkeep : Keeps T ok G P)
    {c c' : Pool τ W} (h : Run T ok c c') (hG : G c.world) (hP : ∀ t ∈ c.threads, P t c.world) :
    G c'.world ∧ ∀ t ∈ c'.threads, P t c'.world := by
  refine @Run.pool _ _ _ T ok (fun c => G c.world ∧ ∀ t ∈ c.threads, P t c.world) ?_ _ _ h ⟨hG, hP⟩
  rintro a e b hs hok ⟨hGa, hPa⟩
  cases hs with
  | run hstep =>
    obtain ⟨hG', hrun, hnew, hrest⟩ := hkeep.run hstep hok hGa (hPa _ (by simp))
    refine ⟨hG', fun u hu => ?_⟩
    simp only [mem_append, mem_cons] at hu
    rcases hu with hu | rfl | hu | hu
    · exact hrest u (by simp [hu]) (hPa u (by simp [hu]))
    · exact hrun
    · exact hrest u (by simp [hu]) (hPa u (by simp [hu]))
    · exact hnew u hu
  | start hstart =>
    exact ⟨hGa, forall_mem_cons.mpr ⟨hkeep.start hstart hGa, hPa⟩⟩
  | lose =>
    refine ⟨hGa, fun u hu => hPa u ?_⟩
    rcases mem_append.mp hu with hu | hu
    · simp [hu]
    · simp [hu]
  | env henv =>
    obtain ⟨hG', hall⟩ := hkeep.env henv hGa
    exact ⟨hG', fun u hu => hall u (hPa u hu)⟩

end Pool

/-! ## Processes as threads -/

section

variable {C : Type u} {A : C → Type v} {W : Type w} {α : Type v}

/-- Processes over one handler; `spawns` are the processes a call starts. -/
def Threads.ofProc (handle : (c : C) → W → A c → W → Prop)
    (spawns : Proc.Event C A W → List (Proc C A α)) (start : W → Proc C A α → Prop)
    (env : W → W → Prop) : Threads (Proc C A α) W (Option (Proc.Event C A W)) where
  step t w l t' w' new := Proc.Step handle t w l t' w' ∧ new = l.elim [] spawns
  start := start
  env := env

variable {handle : (c : C) → W → A c → W → Prop} {spawns : Proc.Event C A W → List (Proc C A α)}
  {start : W → Proc C A α → Prop} {env : W → W → Prop} {a : Pool (Proc C A α) W} {w w' : W}
  {ts : List (Proc C A α)}
  {ok : Pool (Proc C A α) W → Pool.Happens (Proc C A α) (Option (Proc.Event C A W)) →
    Pool (Proc C A α) W → Prop}

theorem Pool.Run.act (h : Run (.ofProc handle spawns start env) ok a ⟨w, ts⟩) (i : Nat) {c : C}
    {k : A c → Proc C A α} (ht : ts[i]? = some (.call c k)) (r : A c) (hr : handle c w r w')
    (hok : ok ⟨w, ts⟩ (.ran (.call c k) (some ⟨c, w, r, w'⟩))
      ⟨w', ts.set i (k r) ++ spawns ⟨c, w, r, w'⟩⟩) :
    Run (.ofProc handle spawns start env) ok a ⟨w', ts.set i (k r) ++ spawns ⟨c, w, r, w'⟩⟩ :=
  h.stepAt i ht ⟨.call hr, rfl⟩ hok

theorem Pool.Run.turn (h : Run (.ofProc handle spawns start env) ok a ⟨w, ts⟩) (i : Nat)
    {σ β : Type v} {body : σ → Proc C A (σ ⊕ β)} {s : σ} {k : β → Proc C A α}
    (ht : ts[i]? = some (.iter body s k))
    (hok : ok ⟨w, ts⟩ (.ran (.iter body s k) none)
      ⟨w, ts.set i ((body s).bind (Proc.again body k)) ++ []⟩) :
    Run (.ofProc handle spawns start env) ok a
      ⟨w, ts.set i ((body s).bind (Proc.again body k)) ++ []⟩ :=
  h.stepAt i ht ⟨.unfold, rfl⟩ hok

end
