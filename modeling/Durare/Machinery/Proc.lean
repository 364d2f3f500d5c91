import Mathlib.Logic.Relation

/-!
# Machinery/Proc — processes, their steps, and rely/guarantee preconditions

A process is a tree of **calls**: it returns, or asks `c` and continues with the answer, or runs a
loop.  The world it runs in is not part of the tree — a handler `handle c w r w'` says which answers
`r` a call may get in world `w` and what world it leaves, and other parties may move the world
between two calls.

* `Step` — one call, or one silent unfolding of a loop.
* `Runs` — a whole run with its calls, the environment moving in between; `May` — there is one.
* `wp` — the precondition under which every call keeps a guarantee and every return meets a
  postcondition, given that the environment keeps to the rely.  Loops are closed by an invariant.
* `wp_step`, `wp_runs` — what `wp` promises holds of every step and every run.
* `Calls` — which calls a process can make at all, whatever it is answered.
* `cut` — a process that is stopped for good by an answer asked for before each of its calls.
* `via` — a process among others that have more calls.
-/

universe u v

/-- A process with calls in `C`, answered in `A`, returning an `α`. -/
inductive Proc (C : Type u) (A : C → Type v) : Type v → Type max u (v + 1) where
  | ret {α : Type v} (a : α) : Proc C A α
  | call {α : Type v} (c : C) (k : A c → Proc C A α) : Proc C A α
  | iter {α σ β : Type v} (body : σ → Proc C A (σ ⊕ β)) (s : σ) (k : β → Proc C A α) : Proc C A α

namespace Proc

variable {C : Type u} {A : C → Type v} {W : Type*} {α β σ : Type v}

/-- Sequencing. -/
def bind : {α : Type v} → Proc C A α → (α → Proc C A β) → Proc C A β
  | _, ret a, f => f a
  | _, call c k, f => call c fun r => (k r).bind f
  | _, iter body s k, f => iter body s fun b => (k b).bind f

instance : Monad (Proc C A) where
  pure := ret
  bind := bind

theorem bind_assoc {γ : Type v} (p : Proc C A α) (f : α → Proc C A β) (g : β → Proc C A γ) :
    (p.bind f).bind g = p.bind fun a => (f a).bind g := by
  induction p with
  | ret a => rfl
  | call c k ih => exact congrArg (call c) (funext fun r => ih r f)
  | iter body s k _ ih => exact congrArg (iter body s) (funext fun b => ih b f)

/-- What a loop does after one round: go on, or leave. -/
def again (body : σ → Proc C A (σ ⊕ β)) (k : β → Proc C A α) : σ ⊕ β → Proc C A α :=
  Sum.elim (fun s => iter body s k) k

variable {f : α → Proc C A β} {s : σ}

/-- What follows a loop follows each way out of it. -/
theorem bind_again {γ : Type v} {body : σ → Proc C A (σ ⊕ γ)} {k : γ → Proc C A α} :
    (((body s).bind (again body k)).bind f) =
      (body s).bind (again body fun b => (k b).bind f) := by
  rw [bind_assoc]
  refine congrArg (body s).bind (funext fun x => ?_)
  cases x with
  | inl t => rfl
  | inr b => rfl

/-- One call on its own. -/
def ask (c : C) : Proc C A (A c) := call c ret

/-! ## Steps and runs -/

/-- A call that was made: the world it found, its answer, the world it left. -/
structure Event (C : Type u) (A : C → Type v) (W : Type*) where
  call : C
  before : W
  answer : A call
  after : W

/-- One step of a process: a call answered by the handler, or the silent unfolding of a loop. -/
inductive Step (handle : (c : C) → W → A c → W → Prop) :
    Proc C A α → W → Option (Event C A W) → Proc C A α → W → Prop where
  | call {c : C} {k : A c → Proc C A α} {w w' : W} {r : A c} (h : handle c w r w') :
      Step handle (call c k) w (some ⟨c, w, r, w'⟩) (k r) w'
  | unfold {σ β : Type v} {body : σ → Proc C A (σ ⊕ β)} {s : σ} {k : β → Proc C A α} {w : W} :
      Step handle (iter body s k) w none ((body s).bind (again body k)) w

/-- The next step of a process whose calls a function answers. -/
def next (answer : (c : C) → W → Option (A c × W)) :
    Proc C A α → W → Option (Proc C A α × W)
  | ret _, _ => none
  | call c k, w => (answer c w).map fun x => (k x.1, x.2)
  | iter body s k, w => some ((body s).bind (again body k), w)

variable {handle : (c : C) → W → A c → W → Prop} {p p' : Proc C A α} {w w' : W}

theorem step_next {answer : (c : C) → W → Option (A c × W)}
    (hanswer : ∀ c w r w', answer c w = some (r, w') → handle c w r w')
    (h : p.next answer w = some (p', w')) : ∃ e, Step handle p w e p' w' := by
  cases p with
  | ret a => cases h
  | call c k =>
    obtain ⟨⟨r, w'⟩, hr, heq⟩ := Option.map_eq_some_iff.mp h
    cases heq
    exact ⟨_, .call (hanswer c _ r w' hr)⟩
  | iter body s k =>
    cases h
    exact ⟨none, .unfold⟩

/-- A complete run: the calls it made, the result, the last world.  `env` moves the world between
two calls. -/
inductive Runs (handle : (c : C) → W → A c → W → Prop) (env : W → W → Prop) :
    Proc C A α → W → List (Event C A W) → α → W → Prop where
  | ret {a : α} {w : W} : Runs handle env (ret a) w [] a w
  | call {c : C} {k : A c → Proc C A α} {w w' w'' : W} {r : A c} {es : List (Event C A W)} {a : α}
      (h : handle c w r w') (rest : Runs handle env (k r) w' es a w'') :
      Runs handle env (call c k) w (⟨c, w, r, w'⟩ :: es) a w''
  | unfold {σ β : Type v} {body : σ → Proc C A (σ ⊕ β)} {s : σ} {k : β → Proc C A α} {w w' : W}
      {es : List (Event C A W)} {a : α}
      (rest : Runs handle env ((body s).bind (again body k)) w es a w') :
      Runs handle env (iter body s k) w es a w'
  | env {p : Proc C A α} {w w₁ w' : W} {es : List (Event C A W)} {a : α} (h : env w w₁)
      (rest : Runs handle env p w₁ es a w') : Runs handle env p w es a w'

variable {a : α} {es : List (Event C A W)}

/-- A run whose calls are answered in a second way too, in a wider environment. -/
theorem Runs.mono {handle' : (c : C) → W → A c → W → Prop} {env env' : W → W → Prop}
    (henv : ∀ w w', env w w' → env' w w') (h : Runs handle env p w es a w') :
    (∀ ev ∈ es, handle ev.call ev.before ev.answer ev.after →
      handle' ev.call ev.before ev.answer ev.after) → Runs handle' env' p w es a w' := by
  induction h with
  | ret => exact fun _ => .ret
  | call hr _ ih =>
    intro hes
    exact .call (hes _ List.mem_cons_self hr) (ih fun ev hev => hes ev (List.mem_cons_of_mem _ hev))
  | unfold _ ih => exact fun hes => .unfold (ih hes)
  | env hw _ ih => exact fun hes => .env (henv _ _ hw) (ih hes)

/-- Some run of `p` ends as `Q` says; `Q` sees the calls it made. -/
def May (handle : (c : C) → W → A c → W → Prop) (env : W → W → Prop) (p : Proc C A α) (w : W)
    (Q : List (Event C A W) → α → W → Prop) : Prop :=
  ∃ es a w', Runs handle env p w es a w' ∧ Q es a w'

variable {body : σ → Proc C A (σ ⊕ β)} {k : β → Proc C A α}

section

variable {handle : (c : C) → W → A c → W → Prop} {env : W → W → Prop} {w w' : W}
  {Q : List (Event C A W) → α → W → Prop}

theorem May.ret (h : Q [] a w) : May handle env (ret a) w Q := ⟨_, _, _, .ret, h⟩

theorem May.call {c : C} {k : A c → Proc C A α} {r : A c} (hr : handle c w r w')
    (h : May handle env (k r) w' fun es => Q (⟨c, w, r, w'⟩ :: es)) :
    May handle env (call c k) w Q := by
  obtain ⟨es, a, w'', hrun, hQ⟩ := h
  exact ⟨_, a, w'', .call hr hrun, hQ⟩

theorem May.unfold (h : May handle env ((body s).bind (again body k)) w Q) :
    May handle env (iter body s k) w Q := by
  obtain ⟨es, a, w', hrun, hQ⟩ := h
  exact ⟨es, a, w', .unfold hrun, hQ⟩

theorem May.mono {Q' : List (Event C A W) → α → W → Prop} (h : May handle env p w Q)
    (hQ : ∀ es a w', Q es a w' → Q' es a w') : May handle env p w Q' := by
  obtain ⟨es, a, w', hrun, ha⟩ := h
  exact ⟨es, a, w', hrun, hQ es a w' ha⟩

theorem Runs.bind {es' : List (Event C A W)} {b : β} {w'' : W} (h : Runs handle env p w es a w')
    (hf : Runs handle env (f a) w' es' b w'') : Runs handle env (p.bind f) w (es ++ es') b w'' := by
  induction h with
  | ret => exact hf
  | call hr _ ih => exact .call hr (ih hf)
  | unfold _ ih =>
    have hrest := ih hf
    rw [bind_again] at hrest
    exact .unfold hrest
  | env hw _ ih => exact .env hw (ih hf)

theorem May.bind {Q : β → W → Prop}
    (h : May handle env p w fun _ a w' => May handle env (f a) w' fun _ => Q) :
    May handle env (p.bind f) w fun _ => Q := by
  obtain ⟨es, a, w', hrun, es', b, w'', hrun', hQ⟩ := h
  exact ⟨_, b, w'', hrun.bind hrun', hQ⟩

/-- One round of a loop, and what comes after it. -/
theorem May.iter {Q : α → W → Prop}
    (h : May handle env (body s) w fun _ x w' => May handle env (again body k x) w' fun _ => Q) :
    May handle env (iter body s k) w fun _ => Q := May.unfold (May.bind h)

end

/-! ## Preconditions -/

/-- What a process is judged against: how calls are answered, what others may do between two of its
calls, and what each of its own calls has to keep. -/
structure Judge (C : Type u) (A : C → Type v) (W : Type*) where
  handle : (c : C) → W → A c → W → Prop
  rely : W → W → Prop
  guar : (c : C) → W → A c → W → Prop

/-- The precondition of `p` for `Q`: every call keeps the guarantee, every return meets `Q`.  A loop
asks for an invariant that its body re-establishes or leaves the loop from. -/
def wp (J : Judge C A W) : {α : Type v} → Proc C A α → (α → W → Prop) → W → Prop
  | _, ret a, Q, w => Q a w
  | _, call c k, Q, w => ∀ w₁, J.rely w w₁ → ∀ r w₂, J.handle c w₁ r w₂ →
      J.guar c w₁ r w₂ ∧ wp J (k r) Q w₂
  | _, iter (σ := σ) body s k, Q, w => ∃ I : σ → W → Prop, I s w ∧ ∀ s' w', I s' w' →
      wp J (body s') (fun x w'' => match x with
        | .inl t => I t w''
        | .inr b => wp J (k b) Q w'') w'

variable {J : Judge C A W} {Q : α → W → Prop}

@[simp] theorem wp_ret : wp J (ret a) Q w ↔ Q a w := Iff.rfl

/-- **The consequence rule.** -/
theorem wp_mono : ∀ {Q Q' : α → W → Prop} {w : W}, (∀ a w, Q a w → Q' a w) →
    wp J p Q w → wp J p Q' w := by
  induction p with
  | ret a =>
    intro Q Q' w hQ h
    exact hQ _ _ h
  | call c k ih =>
    intro Q Q' w hQ h w₁ hw₁ r w₂ hr
    exact ⟨(h w₁ hw₁ r w₂ hr).1, ih r hQ (h w₁ hw₁ r w₂ hr).2⟩
  | iter body s k ihb ihk =>
    rintro Q Q' w hQ ⟨I, hI, hbody⟩
    refine ⟨I, hI, fun s' w' hs' => ihb s' ?_ (hbody s' w' hs')⟩
    rintro (t | b) w'' h
    · exact h
    · exact ihk b hQ h

/-- **The sequencing rule.** -/
theorem wp_bind_iff : ∀ {Q : β → W → Prop} {w : W},
    wp J (p.bind f) Q w ↔ wp J p (fun a => wp J (f a) Q) w := by
  induction p with
  | ret a => exact Iff.rfl
  | call c k ih =>
    intro Q w
    simp only [Proc.bind, wp, ih]
  | iter body s k _ ihk =>
    intro Q w
    simp only [Proc.bind, wp, ihk]

theorem wp_bind {Q : β → W → Prop} (h : wp J p (fun a => wp J (f a) Q) w) : wp J (p.bind f) Q w :=
  wp_bind_iff.mpr h

/-- **The loop rule**: one unfolding of a loop keeps its precondition. -/
theorem wp_unfold (h : wp J (iter body s k) Q w) : wp J ((body s).bind (again body k)) Q w := by
  obtain ⟨I, hI, hbody⟩ := h
  refine wp_bind (wp_mono ?_ (hbody s w hI))
  rintro (t | b) w' h
  · exact ⟨I, h, hbody⟩
  · exact h

/-! ## What a precondition promises -/

/-- `p` meets its precondition in a world the environment has since moved on from. -/
def Safe (J : Judge C A W) (p : Proc C A α) (Q : α → W → Prop) (w : W) : Prop :=
  ∃ w₀, J.rely w₀ w ∧ wp J p Q w₀

theorem Safe.env {p : Proc C A α} {Q : α → W → Prop} {w w' : W} (h : Safe J p Q w)
    (htrans : ∀ {a b c}, J.rely a b → J.rely b c → J.rely a c) (hw : J.rely w w') :
    Safe J p Q w' := by
  obtain ⟨w₀, h₀, hp⟩ := h
  exact ⟨w₀, htrans h₀ hw, hp⟩

/-- **One step of a safe process keeps the guarantee and stays safe.** -/
theorem wp_step (hrefl : ∀ w, J.rely w w) {e : Option (Event C A W)} (h : Safe J p Q w)
    (hs : Step J.handle p w e p' w') :
    (∀ ev, e = some ev → J.guar ev.call ev.before ev.answer ev.after) ∧ Safe J p' Q w' := by
  obtain ⟨w₀, h₀, hp⟩ := h
  cases hs with
  | call hr =>
    obtain ⟨hg, hk⟩ := hp _ h₀ _ _ hr
    refine ⟨?_, _, hrefl _, hk⟩
    rintro ev ⟨rfl⟩
    exact hg
  | unfold => exact ⟨by rintro ev ⟨⟩, w₀, h₀, wp_unfold hp⟩

/-- **Every run of a safe process keeps the guarantee at each call and ends in its
postcondition**, up to what the environment did after the last call. -/
theorem wp_runs (hrefl : ∀ w, J.rely w w) (htrans : ∀ {a b c}, J.rely a b → J.rely b c → J.rely a c)
    (hr : Runs J.handle J.rely p w es a w') :
    Safe J p Q w → (∀ ev ∈ es, J.guar ev.call ev.before ev.answer ev.after) ∧
      ∃ w₀, J.rely w₀ w' ∧ Q a w₀ := by
  induction hr with
  | ret =>
    intro h
    exact ⟨by simp, h⟩
  | call hc _ ih =>
    intro h
    obtain ⟨hg, hsafe⟩ := wp_step hrefl h (Step.call hc)
    obtain ⟨hes, hQ⟩ := ih hsafe
    refine ⟨?_, hQ⟩
    rintro ev (_ | ⟨_, hev⟩)
    · exact hg _ rfl
    · exact hes ev hev
  | unfold _ ih =>
    intro h
    exact ih (wp_step hrefl h (Step.unfold)).2
  | env henv _ ih =>
    intro h
    exact ih (h.env htrans henv)

/-! ## Calls that are answered by number -/

/-- The `n`th call of a run gets the answer `answer n`. -/
def scripted (answer : Nat → (c : C) → A c) : Judge C A Nat where
  handle c n r n' := r = answer n c ∧ n' = n + 1
  rely := Eq
  guar _ _ _ _ := True

theorem wp_of_unfold (h : wp J ((body s).bind (again body k)) Q w) : wp J (iter body s k) Q w := by
  -- the invariant is the precondition of one more round
  refine ⟨fun s => wp J (body s) fun x => wp J (again body k x) Q, wp_bind_iff.mp h, ?_⟩
  intro t w h
  refine wp_mono ?_ h
  rintro (t | b) w' h'
  · exact wp_bind_iff.mp (wp_unfold h')
  · exact h'

section

variable {answer : Nat → (c : C) → A c} {n m : Nat} {Q : α → Nat → Prop}

/-- **A run whose calls are answered by number is the only one.** -/
theorem wp_of_runs {es : List (Event C A Nat)} (h : Runs (scripted answer).handle Eq p n es a m) :
    Q a m → wp (scripted answer) p Q n := by
  induction h with
  | ret => exact id
  | call hr _ ih =>
    rintro hQ _ rfl r n' ⟨rfl, rfl⟩
    obtain ⟨rfl, rfl⟩ := hr
    exact ⟨trivial, ih hQ⟩
  | unfold _ ih => exact fun hQ => wp_of_unfold (ih hQ)
  | env hn _ ih => exact fun hQ => hn ▸ ih hQ

theorem May.wp {Q' : α → Nat → Prop} (h : May (scripted answer).handle Eq p n fun _ => Q')
    (hQ : ∀ a m, Q' a m → Q a m) : wp (scripted answer) p Q n := by
  obtain ⟨_, a, m, hrun, ha⟩ := h
  exact wp_of_runs hrun (hQ a m ha)

theorem May.post {Q' : α → Nat → Prop} (h : May (scripted answer).handle Eq p n fun _ => Q')
    (hwp : Proc.wp (scripted answer) p Q n) :
    May (scripted answer).handle Eq p n fun _ a m => Q' a m ∧ Q a m := by
  obtain ⟨es, a, m, hrun, ha⟩ := h
  obtain ⟨-, _, rfl, hQ⟩ := wp_runs (J := scripted answer) (fun _ => rfl) Eq.trans
    hrun ⟨n, rfl, hwp⟩
  exact ⟨es, a, _, hrun, ha, hQ⟩

end

/-! ## Footprints -/

/-- Every call of the tree is in `S`. -/
def Calls (S : C → Prop) : {α : Type v} → Proc C A α → Prop
  | _, ret _ => True
  | _, call c k => S c ∧ ∀ r, (k r).Calls S
  | _, iter body _ k => (∀ s, (body s).Calls S) ∧ ∀ b, (k b).Calls S

variable {S : C → Prop}

theorem Calls.mono {S' : C → Prop} (hS : ∀ c, S c → S' c) : p.Calls S → p.Calls S' := by
  induction p with
  | ret a => exact id
  | call c k ih => exact fun h => ⟨hS c h.1, fun r => ih r (h.2 r)⟩
  | iter body s k ihb ihk => exact fun h => ⟨fun s => ihb s (h.1 s), fun b => ihk b (h.2 b)⟩

theorem Calls.bind (hf : ∀ a, (f a).Calls S) : p.Calls S → (p.bind f).Calls S := by
  induction p with
  | ret a => exact fun _ => hf a
  | call c k ih => exact fun h => ⟨h.1, fun r => ih r hf (h.2 r)⟩
  | iter body s k _ ihk => exact fun h => ⟨h.1, fun b => ihk b hf (h.2 b)⟩

/-- **A step makes a call of the footprint, and the rest keeps to it.** -/
theorem Calls.step {handle : (c : C) → W → A c → W → Prop} {p p' : Proc C A α} {w w' : W}
    {e : Option (Event C A W)} (h : p.Calls S) (hs : Step handle p w e p' w') :
    (∀ ev, e = some ev → S ev.call) ∧ p'.Calls S := by
  cases hs with
  | call hr =>
    refine ⟨?_, h.2 _⟩
    rintro ev ⟨rfl⟩
    exact h.1
  | unfold =>
    refine ⟨by rintro ev ⟨⟩, (h.1 _).bind ?_⟩
    rintro (s | b)
    · exact ⟨h.1, h.2⟩
    · exact h.2 b

/-- What an event of a step says: its call was answered in the world before it. -/
theorem Step.event {ev : Event C A W} (hs : Step handle p w (some ev) p' w') :
    ev.before = w ∧ ev.after = w' ∧ handle ev.call w ev.answer w' := by
  cases hs with
  | call hr => exact ⟨rfl, rfl, hr⟩

theorem Step.silent (hs : Step handle p w none p' w') : w' = w := by
  cases hs with
  | unfold => rfl

/-- The calls of a process without loops are in `S`. -/
def Straight (S : C → Prop) : {α : Type v} → Proc C A α → Prop
  | _, ret _ => True
  | _, call c k => S c ∧ ∀ r, (k r).Straight S
  | _, iter _ _ _ => False

theorem Straight.bind (hf : ∀ a, (f a).Straight S) : p.Straight S → (p.bind f).Straight S := by
  induction p with
  | ret a => exact fun _ => hf a
  | call c k ih => exact fun h => ⟨h.1, fun r => ih r hf (h.2 r)⟩
  | iter => exact False.elim

/-- **A process without loops comes to its end**, if its calls are answered. -/
theorem Straight.runs {env : W → W → Prop} (hS : ∀ c, S c → ∀ w, ∃ r w', handle c w r w') :
    p.Straight S → ∀ w, ∃ es a w', Runs handle env p w es a w' := by
  induction p with
  | ret a => exact fun _ w => ⟨[], a, w, .ret⟩
  | call c k ih =>
    intro h w
    obtain ⟨r, w₁, hr⟩ := hS c h.1 w
    obtain ⟨es, a, w', hrun⟩ := ih r (h.2 r) w₁
    exact ⟨_, a, w', .call hr hrun⟩
  | iter => exact fun h => h.elim

/-! ## Cutting a process off -/

/-- A round of a loop that may have been cut off. -/
def cutRound : Option (σ ⊕ β) → σ ⊕ Option β
  | none => .inr none
  | some (.inl s) => .inl s
  | some (.inr b) => .inr (some b)

/-- Ask `c` before every call and stop for good, with `none`, at the first answer that says so. -/
def cut (c : C) (stop : A c → Bool) : {α : Type v} → Proc C A α → Proc C A (Option α)
  | _, ret a => ret (some a)
  | _, call c' k => call c fun x => if stop x then ret none else call c' fun r => (k r).cut c stop
  | _, iter body s k => iter (fun s => ((body s).cut c stop).bind fun x => ret (cutRound x)) s fun
      | none => ret none
      | some b => (k b).cut c stop

theorem Calls.cut {c : C} {stop : A c → Bool} (hc : S c) : p.Calls S → (p.cut c stop).Calls S := by
  induction p with
  | ret a => exact fun _ => trivial
  | call c' k ih =>
    refine fun h => ⟨hc, fun x => ?_⟩
    cases hx : stop x with
    | true =>
      dsimp only
      rw [if_pos hx]
      trivial
    | false =>
      dsimp only
      rw [if_neg (by simp [hx])]
      exact ⟨h.1, fun r => ih r (h.2 r)⟩
  | iter body s k ihb ihk =>
    intro h
    rw [Proc.cut]
    refine ⟨fun s => (ihb s (h.1 s)).bind fun _ => trivial, ?_⟩
    rintro (_ | b)
    · trivial
    · exact ihk b (h.2 b)

/-- **What the guarantee gives after each call holds at the end.** -/
theorem wp_keep {I : W → Prop} (hguar : ∀ c w r w', J.guar c w r w' → I w') :
    ∀ w, wp J p Q w → I w → wp J p (fun a w' => Q a w' ∧ I w') w := by
  induction p with
  | ret a => exact fun _ h hI => ⟨h, hI⟩
  | call c k ih =>
    intro w h hI w₁ hw₁ r w₂ hr
    obtain ⟨hg, hk⟩ := h w₁ hw₁ r w₂ hr
    exact ⟨hg, ih r w₂ hk (hguar c w₁ r w₂ hg)⟩
  | iter body s k ihb ihk =>
    rintro w ⟨Inv, hInv, hbody⟩ hI
    refine ⟨fun s w => Inv s w ∧ I w, ⟨hInv, hI⟩, fun s' w' h => wp_mono ?_
      (ihb s' w' (hbody s' w' h.1) h.2)⟩
    rintro (t | b) w'' h''
    · exact h''
    · exact ihk b w'' h''.1 h''.2

/-- **A process all of whose calls keep the guarantee and an invariant.** -/
theorem Calls.keeps {I : W → Prop} (hrely : ∀ w w', I w → J.rely w w' → I w')
    (hS : ∀ c, S c → ∀ w r w', I w → J.handle c w r w' → J.guar c w r w' ∧ I w') :
    p.Calls S → ∀ w, I w → Proc.wp J p (fun _ w' => I w') w := by
  induction p with
  | ret a => exact fun _ _ h => h
  | call c k ih =>
    intro h w hI w₁ hw₁ r w₂ hr
    obtain ⟨hguar, hI₂⟩ := hS c h.1 w₁ r w₂ (hrely w w₁ hI hw₁) hr
    exact ⟨hguar, ih r (h.2 r) w₂ hI₂⟩
  | iter body s k ihb ihk =>
    intro h w hI
    refine ⟨fun _ => I, hI, fun s' w' hI' => wp_mono ?_ (ihb s' (h.1 s') w' hI')⟩
    rintro (t | b) w'' hI''
    · exact hI''
    · exact ihk b (h.2 b) w'' hI''

/-- A process all of whose calls keep the guarantee. -/
theorem Calls.wp (hS : ∀ c, S c → ∀ w r w', J.handle c w r w' → J.guar c w r w') (h : p.Calls S)
    (w : W) : wp J p (fun _ _ => True) w :=
  h.keeps (fun _ _ _ _ => trivial) (fun c hc w r w' _ hr => ⟨hS c hc w r w' hr, trivial⟩) w trivial

/-- Every call of the process keeps the guarantee, wherever it starts. -/
def Abides (J : Judge C A W) (p : Proc C A α) : Prop := ∀ w, Proc.wp J p (fun _ _ => True) w

theorem Abides.ret : (ret a : Proc C A α).Abides J := fun _ => trivial

theorem Abides.call {c : C} {k : A c → Proc C A α}
    (hc : ∀ w r w', J.handle c w r w' → J.guar c w r w') (hk : ∀ r, (k r).Abides J) :
    (call c k).Abides J :=
  fun _ _ _ r w₂ hr => ⟨hc _ r w₂ hr, hk r w₂⟩

theorem Abides.bind (hp : p.Abides J) (hf : ∀ a, (f a).Abides J) : (p.bind f).Abides J :=
  fun w => wp_bind (wp_mono (fun a w' _ => hf a w') (hp w))

theorem Abides.iter (hbody : ∀ s, (body s).Abides J) (hk : ∀ b, (k b).Abides J) :
    (iter body s k).Abides J := by
  refine fun w => ⟨fun _ _ => True, trivial, fun s w' _ => wp_mono ?_ (hbody s w')⟩
  rintro (_ | b) w'' -
  · trivial
  · exact hk b w''

/-- **A process that meets its precondition meets it up to the point where it is cut off**, if the
answer asked for in between moves nothing. -/
theorem wp_cut {c : C} {stop : A c → Bool}
    (htrans : ∀ {a b c}, J.rely a b → J.rely b c → J.rely a c)
    (hc : ∀ w r w', J.handle c w r w' → J.guar c w r w' ∧ w' = w) :
    ∀ {Q : α → W → Prop} {w : W}, Proc.wp J p Q w →
      Proc.wp J (p.cut c stop) (fun x w' => ∀ a, x = some a → Q a w') w := by
  induction p with
  | ret a =>
    rintro Q w h _ ⟨rfl⟩
    exact h
  | call c' k ih =>
    intro Q w h w₁ hw₁ x w₂ hx
    obtain ⟨hguar, rfl⟩ := hc w₁ x w₂ hx
    refine ⟨hguar, ?_⟩
    cases hs : stop x with
    | true =>
      dsimp only
      rw [if_pos hs]
      exact wp_ret.mpr (by simp)
    | false =>
      dsimp only
      rw [if_neg (by simp [hs])]
      intro w₃ hw₃ r w₄ hr
      obtain ⟨hguar', hk⟩ := h w₃ (htrans hw₁ hw₃) r w₄ hr
      exact ⟨hguar', ih r hk⟩
  | iter body s k ihb ihk =>
    rintro Q w ⟨I, hI, hbody⟩
    rw [Proc.cut]
    refine ⟨I, hI, fun s' w' hs' => wp_bind (wp_mono ?_ (ihb s' (hbody s' w' hs')))⟩
    rintro (_ | t | b) w'' h
    · exact nofun
    · exact h _ rfl
    · exact ihk b (h _ rfl)

/-- **A process that was cut off leaves the world as the answer that said so did.** -/
theorem Calls.wp_cut {c : C} {stop : A c → Bool} {F : W → Prop}
    (hS : ∀ c, S c → ∀ w r w', J.handle c w r w' → J.guar c w r w') (hc : S c)
    (hstop : ∀ w r w', J.handle c w r w' → stop r = true → F w') :
    p.Calls S → ∀ w, Proc.wp J (p.cut c stop) (fun r w' => r = none → F w') w := by
  induction p with
  | ret a => exact nofun
  | call c' k ih =>
    intro h w w₁ _ x w₂ hx
    refine ⟨hS c hc w₁ x w₂ hx, ?_⟩
    cases hs : stop x with
    | true =>
      dsimp only
      rw [if_pos hs]
      exact fun _ => hstop w₁ x w₂ hx hs
    | false =>
      dsimp only
      rw [if_neg (by simp [hs])]
      exact fun w₃ _ r w₄ hr => ⟨hS c' h.1 w₃ r w₄ hr, ih r (h.2 r) w₄⟩
  | iter body s k ihb ihk =>
    intro h w
    rw [Proc.cut]
    refine ⟨fun _ _ => True, trivial, fun s' w' _ => wp_bind (wp_mono ?_ (ihb s' (h.1 s') w'))⟩
    rintro (_ | t | b) w'' hF
    · exact fun _ => hF rfl
    · trivial
    · exact ihk b (h.2 b) w''

/-- **A judge that follows another**: a process judged in the world `w` is judged so in the world
`v`, if every move of `v` is one of `w` and the guarantee carries over. -/
theorem wp_follow {W' : Type*} {J' : Judge C A W'} {R : W → W' → Prop}
    (hrely : ∀ {w v v'}, R w v → J'.rely v v' → ∃ w', J.rely w w' ∧ R w' v')
    (hcall : ∀ {c w v r v'}, R w v → J'.handle c v r v' →
      ∃ w', J.handle c w r w' ∧ R w' v' ∧ (J.guar c w r w' → J'.guar c v r v')) :
    ∀ {Q : α → W → Prop} {w : W} {v : W'}, R w v → wp J p Q w →
      wp J' p (fun a v' => ∃ w', R w' v' ∧ Q a w') v := by
  induction p with
  | ret a => exact fun hR h => ⟨_, hR, h⟩
  | call c k ih =>
    intro Q w v hR h v₁ hv₁ r v₂ hr
    obtain ⟨w₁, hw₁, hR₁⟩ := hrely hR hv₁
    obtain ⟨w₂, hw₂, hR₂, hguar⟩ := hcall hR₁ hr
    obtain ⟨hg, hk⟩ := h w₁ hw₁ r w₂ hw₂
    exact ⟨hguar hg, ih r hR₂ hk⟩
  | iter body s k ihb ihk =>
    rintro Q w v hR ⟨I, hI, hbody⟩
    refine ⟨fun s v => ∃ w, R w v ∧ I s w, ⟨w, hR, hI⟩, ?_⟩
    rintro s' v' ⟨w', hR', hs'⟩
    refine wp_mono ?_ (ihb s' hR' (hbody s' w' hs'))
    rintro (t | b) v'' ⟨w'', hR'', h⟩
    · exact ⟨w'', hR'', h⟩
    · exact ihk b hR'' h

/-! ## More calls -/

section

universe u'

variable {C' : Type u'} {A' : C' → Type v} (f : C → C')

/-- A process with the calls of `C`, among those of `C'`. -/
def via : {α : Type v} → Proc C (fun c => A' (f c)) α → Proc C' A' α
  | _, ret a => ret a
  | _, call c k => call (f c) fun r => (k r).via
  | _, iter body s k => iter (fun s => (body s).via) s fun b => (k b).via

/-- The judge for the calls of `C` alone. -/
def Judge.via (J : Judge C' A' W) : Judge C (fun c => A' (f c)) W where
  handle c := J.handle (f c)
  rely := J.rely
  guar c := J.guar (f c)

theorem wp_via {J : Judge C' A' W} {p : Proc C (fun c => A' (f c)) α} :
    ∀ {Q : α → W → Prop} {w : W}, wp (J.via f) p Q w → wp J (p.via f) Q w := by
  induction p with
  | ret a => exact fun h => h
  | call c k ih =>
    intro Q w h w₁ hw₁ r w₂ hr
    exact ⟨(h w₁ hw₁ r w₂ hr).1, ih r (h w₁ hw₁ r w₂ hr).2⟩
  | iter body s k ihb ihk =>
    rintro Q w ⟨I, hI, hbody⟩
    refine ⟨I, hI, fun s' w' hs' => wp_mono ?_ (ihb s' (hbody s' w' hs'))⟩
    rintro (t | b) w'' h
    · exact h
    · exact ihk b h

end

end Proc
