import Durare.Machinery.Interleave

/-!
# Machinery/History — processes with their past

A system of processes with two records added: the world remembers every call made in it, and each
process remembers the calls it made itself.  Nothing in the system reads the records
(`Pool.Run.erase`); they are there to say what a step may only do after something else has happened.

* `Since` — the past-time operator: `p` has held ever since `q`.
* `NoneSince` — between two moments of one past there is no event of a kind.
* `Threads.tracked` — the system with its records; `Threads.logged` — any threads with the labels of
  their steps.
* `Tracked.Safe` — preconditions that speak about a process's own past.
-/

universe u v w

/-! ## The past -/

section

variable {ε : Type u} {p q : ε → Prop} {e : ε} {past old : List ε}

/-- `q` has happened, and every later event satisfies `p`; the latest event comes first. -/
def Since (p q : ε → Prop) : List ε → Prop
  | [] => False
  | e :: past => q e ∨ p e ∧ Since p q past

theorem Since.exists : ∀ {past : List ε}, Since p q past → ∃ e ∈ past, q e
  | e :: past, .inl h => ⟨e, List.mem_cons_self, h⟩
  | _ :: past, .inr h => by
    obtain ⟨e, hmem, he⟩ := Since.exists h.2
    exact ⟨e, List.mem_cons_of_mem _ hmem, he⟩

/-- The past `new` has come from `old` without an event that satisfies `p`. -/
inductive NoneSince (p : ε → Prop) (old : List ε) : List ε → Prop where
  | refl : NoneSince p old old
  | cons {e : ε} {new : List ε} (he : ¬p e) (h : NoneSince p old new) : NoneSince p old (e :: new)

/-- One event back, from a past at least as long. -/
theorem NoneSince.of_cons (h : NoneSince p old (e :: past)) (hlen : old.length ≤ past.length) :
    ¬p e ∧ NoneSince p old past := by
  cases h with
  | refl =>
    simp only [List.length_cons] at hlen
    omega
  | cons he h => exact ⟨he, h⟩

end

/-! ## Records -/

variable {C : Type u} {A : C → Type v} {W : Type w} {α : Type v}

/-- A world with the calls made in it, the latest first. -/
structure Traced (C : Type u) (A : C → Type v) (W : Type w) where
  world : W
  past : List (Proc.Event C A W)

/-- A process with the calls it made itself, the latest first. -/
structure Tracked (C : Type u) (A : C → Type v) (W : Type w) (α : Type v) where
  proc : Proc C A α
  own : List (Proc.Event C A (Traced C A W))

/-- The call without the record. -/
def Proc.Event.erase (e : Proc.Event C A (Traced C A W)) : Proc.Event C A W :=
  ⟨e.call, e.before.world, e.answer, e.after.world⟩

/-- A call is answered as before, and recorded. -/
def Traced.handle (handle : (c : C) → W → A c → W → Prop) (c : C) (w : Traced C A W) (r : A c)
    (w' : Traced C A W) : Prop :=
  handle c w.world r w'.world ∧ w'.past = ⟨c, w.world, r, w'.world⟩ :: w.past

/-- Processes over one handler, with their records. -/
def Threads.tracked (handle : (c : C) → W → A c → W → Prop)
    (spawns : Proc.Event C A W → List (Proc C A α)) (start : W → Proc C A α → Prop)
    (env : W → W → Prop) :
    Threads (Tracked C A W α) (Traced C A W) (Option (Proc.Event C A (Traced C A W))) where
  step t w l t' w' new := Proc.Step (Traced.handle handle) t.proc w l t'.proc w' ∧
    t'.own = l.toList ++ t.own ∧ new = (l.elim [] fun e => spawns e.erase).map fun p => ⟨p, []⟩
  start w t := start w.world t.proc ∧ t.own = []
  env w w' := env w.world w'.world ∧ w'.past = w.past

/-! ## Forgetting the records -/

/-- The pool without its records. -/
def Pool.erase (c : Pool (Tracked C A W α) (Traced C A W)) : Pool (Proc C A α) W :=
  ⟨c.world.world, c.threads.map Tracked.proc⟩

variable {handle : (c : C) → W → A c → W → Prop} {spawns : Proc.Event C A W → List (Proc C A α)}
  {start : W → Proc C A α → Prop} {env : W → W → Prop} {w w' : Traced C A W}

theorem Proc.Step.erase {p p' : Proc C A α} {l : Option (Proc.Event C A (Traced C A W))}
    (h : Proc.Step (Traced.handle handle) p w l p' w') :
    Proc.Step handle p w.world (l.map Proc.Event.erase) p' w'.world := by
  cases h with
  | call hr => exact .call hr.1
  | unfold => exact .unfold

/-- What happens in a step, without the records. -/
def Pool.Happens.erase : Pool.Happens (Tracked C A W α) (Option (Proc.Event C A (Traced C A W))) →
    Pool.Happens (Proc C A α) (Option (Proc.Event C A W))
  | .ran t l => .ran t.proc (l.map Proc.Event.erase)
  | .started t => .started t.proc
  | .lost => .lost
  | .env => .env

variable {a b : Pool (Tracked C A W α) (Traced C A W)}

/-- **A step with records is a step.** -/
theorem Pool.Step.erase
    {e : Pool.Happens (Tracked C A W α) (Option (Proc.Event C A (Traced C A W)))}
    (h : Pool.Step (.tracked handle spawns start env) a e b) :
    Pool.Step (.ofProc handle spawns start env) a.erase e.erase b.erase := by
  cases h with
  | @run pre post new t t' w w' l h =>
    obtain ⟨hstep, -, rfl⟩ := h
    have hnew : (l.elim [] fun e => spawns e.erase) = (l.map Proc.Event.erase).elim [] spawns := by
      cases l <;> rfl
    simp only [Pool.erase, List.map_append, List.map_cons, List.map_map, Function.comp_def,
      List.map_id', hnew]
    exact .run ⟨hstep.erase, rfl⟩
  | start h => exact .start h.1
  | lose =>
    simp only [Pool.erase, List.map_append, List.map_cons]
    exact .lose
  | env h => exact .env h.1

variable
  {ok : Pool (Tracked C A W α) (Traced C A W) →
      Pool.Happens (Tracked C A W α) (Option (Proc.Event C A (Traced C A W))) →
      Pool (Tracked C A W α) (Traced C A W) → Prop}

/-- **A run with records is a run.** -/
theorem Pool.Run.erase (h : Pool.Run (.tracked handle spawns start env) ok a b) :
    Pool.Run (.ofProc handle spawns start env) (fun _ _ _ => True) a.erase b.erase := by
  induction h with
  | refl => exact .refl _
  | tail _ hlast ih =>
    obtain ⟨e, hs, -⟩ := hlast
    exact ih.tail hs.erase trivial

/-- A run, with its calls added to the past. -/
theorem Proc.Runs.traced {p : Proc C A α} {w w' : W} {es : List (Proc.Event C A W)} {a : α}
    (h : Proc.Runs handle env p w es a w') : ∀ past, ∃ es',
      Proc.Runs (Traced.handle handle) (fun x x' => env x.world x'.world ∧ x'.past = x.past) p
        ⟨w, past⟩ es' a ⟨w', es.reverse ++ past⟩ := by
  induction h with
  | ret => exact fun past => ⟨[], .ret⟩
  | @call c k w w' _ r es _ hr _ ih =>
    intro past
    obtain ⟨es', hrest⟩ := ih (⟨c, w, r, w'⟩ :: past)
    rw [List.reverse_cons, List.append_assoc]
    exact ⟨_, .call ⟨hr, rfl⟩ hrest⟩
  | unfold _ ih =>
    intro past
    obtain ⟨es', hrest⟩ := ih past
    exact ⟨es', .unfold hrest⟩
  | @env _ w w₁ _ _ _ hw _ ih =>
    intro past
    obtain ⟨es', hrest⟩ := ih past
    have hmove : env (Traced.mk w past).world (Traced.mk w₁ past).world ∧
      (Traced.mk w₁ past).past = (Traced.mk w past).past := ⟨hw, rfl⟩
    exact ⟨es', .env hmove hrest⟩

/-! ## Keeping the labels -/

/-- A world with the labels of the steps taken in it, the latest first. -/
structure Logged (W : Type v) (L : Type w) where
  world : W
  past : List L

/-- The threads, with the labels of their steps kept. -/
def Threads.logged {τ : Type*} {W : Type v} {L : Type w} (T : Threads τ W L) :
    Threads τ (Logged W L) L where
  step t w l t' w' new := T.step t w.world l t' w'.world new ∧ w'.past = l :: w.past
  start w t := T.start w.world t
  env w w' := T.env w.world w'.world ∧ w'.past = w.past

/-! ## Building runs -/

variable {t : Tracked C A W α}

section

variable {a : Pool (Tracked C A W α) (Traced C A W)} {w : W} {past : List (Proc.Event C A W)}
  {ts : List (Tracked C A W α)}
  {ok : Pool (Tracked C A W α) (Traced C A W) →
    Pool.Happens (Tracked C A W α) (Option (Proc.Event C A (Traced C A W))) →
    Pool (Tracked C A W α) (Traced C A W) → Prop}

/-- The process at place `i` makes its call, and it is recorded. -/
theorem Pool.Run.actTracked
    (h : Run (.tracked handle spawns start env) ok a ⟨⟨w, past⟩, ts⟩) (i : Nat) {c : C}
    {k : A c → Proc C A α} {own : List (Proc.Event C A (Traced C A W))}
    (ht : ts[i]? = some ⟨.call c k, own⟩) (r : A c) {w' : W} (hr : handle c w r w')
    (hok : let now : Traced C A W := ⟨w', ⟨c, w, r, w'⟩ :: past⟩
      let ev : Proc.Event C A (Traced C A W) := ⟨c, ⟨w, past⟩, r, now⟩
      ok ⟨⟨w, past⟩, ts⟩ (.ran ⟨.call c k, own⟩ (some ev)) ⟨now, ts.set i ⟨k r, ev :: own⟩ ++
        (spawns ⟨c, w, r, w'⟩).map fun p => ⟨p, []⟩⟩) :
    Run (.tracked handle spawns start env) ok a ⟨⟨w', ⟨c, w, r, w'⟩ :: past⟩,
      ts.set i ⟨k r, ⟨c, ⟨w, past⟩, r, ⟨w', ⟨c, w, r, w'⟩ :: past⟩⟩ :: own⟩ ++
        (spawns ⟨c, w, r, w'⟩).map fun p => ⟨p, []⟩⟩ :=
  h.stepAt i ht ⟨.call ⟨hr, rfl⟩, rfl, rfl⟩ hok

theorem Pool.Run.turnTracked
    (h : Run (.tracked handle spawns start env) ok a ⟨⟨w, past⟩, ts⟩) (i : Nat) {σ β : Type v}
    {body : σ → Proc C A (σ ⊕ β)} {s : σ} {k : β → Proc C A α}
    {own : List (Proc.Event C A (Traced C A W))} (ht : ts[i]? = some ⟨.iter body s k, own⟩)
    (hok : ok ⟨⟨w, past⟩, ts⟩ (.ran ⟨.iter body s k, own⟩ none)
      ⟨⟨w, past⟩, ts.set i ⟨(body s).bind (Proc.again body k), own⟩ ++ []⟩) :
    Run (.tracked handle spawns start env) ok a
      ⟨⟨w, past⟩, ts.set i ⟨(body s).bind (Proc.again body k), own⟩ ++ []⟩ :=
  h.stepAt i ht ⟨.unfold, rfl, rfl⟩ hok

/-- The next step of a process whose calls a function answers. -/
def Tracked.next (answer : (c : C) → W → Option (A c × W)) :
    Tracked C A W α → Traced C A W → Option (Tracked C A W α × Traced C A W)
  | ⟨.ret _, _⟩, _ => none
  | ⟨.call c k, own⟩, w => (answer c w.world).map fun x =>
    let now : Traced C A W := ⟨x.2, ⟨c, w.world, x.1, x.2⟩ :: w.past⟩
    (⟨k x.1, ⟨c, w, x.1, now⟩ :: own⟩, now)
  | ⟨.iter body s k, own⟩, w => some (⟨(body s).bind (Proc.again body k), own⟩, w)

variable {answer : (c : C) → W → Option (A c × W)} {x : Traced C A W}

theorem Tracked.step_next (hanswer : ∀ c w r w', answer c w = some (r, w') → handle c w r w')
    {t' : Tracked C A W α} {x' : Traced C A W} (h : t.next answer x = some (t', x')) :
    ∃ l, (Threads.tracked handle (fun _ => []) start env).step t x l t' x' [] := by
  obtain ⟨p, own⟩ := t
  cases p with
  | ret a => cases h
  | call c k =>
    obtain ⟨⟨r, w'⟩, hr, heq⟩ := Option.map_eq_some_iff.mp h
    cases heq
    exact ⟨_, .call ⟨hanswer c _ r w' hr, rfl⟩, rfl, rfl⟩
  | iter body s k =>
    cases h
    exact ⟨none, .unfold, rfl, rfl⟩

end

/-! ## Preconditions about the own past -/

/-- What a process sees: the shared world and its own past. -/
abbrev Tracked.View (C : Type u) (A : C → Type v) (W : Type w) :=
  Traced C A W × List (Proc.Event C A (Traced C A W))

/-- A call moves the world and is added to the own past; others leave the own past alone. -/
def Tracked.judge (handle : (c : C) → W → A c → W → Prop) (rely : Traced C A W → Traced C A W →
    Prop) (guar : C → Tracked.View C A W → Prop) : Proc.Judge C A (Tracked.View C A W) where
  handle c x r x' := Traced.handle handle c x.1 r x'.1 ∧ x'.2 = ⟨c, x.1, r, x'.1⟩ :: x.2
  rely x x' := rely x.1 x'.1 ∧ x'.2 = x.2
  guar c x _ _ := guar c x

variable {rely : Traced C A W → Traced C A W → Prop} {guar : C → Tracked.View C A W → Prop}

/-- Every call of the process keeps a guarantee that may speak about the calls it made before. -/
def Tracked.Safe (handle : (c : C) → W → A c → W → Prop) (rely : Traced C A W → Traced C A W → Prop)
    (guar : C → Tracked.View C A W → Prop) (t : Tracked C A W α) (w : Traced C A W) : Prop :=
  Proc.Safe (Tracked.judge handle rely guar) t.proc (fun _ _ => True) (w, t.own)

theorem Tracked.Safe.moved (h : t.Safe handle rely guar w)
    (htrans : ∀ {a b c}, rely a b → rely b c → rely a c) (hw : rely w w') :
    t.Safe handle rely guar w' :=
  Proc.Safe.env h (fun ha hb => ⟨htrans ha.1 hb.1, hb.2.trans ha.2⟩) ⟨hw, rfl⟩

/-- **A step of a safe process keeps the guarantee, and the process is safe after it.** -/
theorem Tracked.Safe.step (hrefl : ∀ w, rely w w) {t t' : Tracked C A W α} {w w' : Traced C A W}
    {l : Option (Proc.Event C A (Traced C A W))} {new : List (Tracked C A W α)}
    (h : t.Safe handle rely guar w)
    (hs : (Threads.tracked handle spawns start env).step t w l t' w' new) :
    (∀ e, l = some e → guar e.call (w, t.own)) ∧ t'.Safe handle rely guar w' := by
  obtain ⟨p, own⟩ := t
  obtain ⟨p', own'⟩ := t'
  obtain ⟨hstep, hown, -⟩ := hs
  have hrefl' : ∀ x, (Tracked.judge handle rely guar).rely x x := fun x => ⟨hrefl x.1, rfl⟩
  cases hstep with
  | @call c k _ _ r hr =>
    obtain rfl : own' = ⟨c, w, r, w'⟩ :: own := hown
    have hview : Proc.Step (Tracked.judge handle rely guar).handle (.call c k) (w, own) _ (k r)
        (w', ⟨c, w, r, w'⟩ :: own) := .call ⟨hr, rfl⟩
    obtain ⟨hguar, hsafe⟩ := Proc.wp_step hrefl' h hview
    refine ⟨?_, hsafe⟩
    rintro e ⟨rfl⟩
    exact hguar _ rfl
  | unfold =>
    obtain rfl : own' = own := hown
    exact ⟨nofun, (Proc.wp_step hrefl' h .unfold).2⟩

/-- What a process is to keep to if the others are of no concern to it. -/
abbrev Tracked.judgeAlone (handle : (c : C) → W → A c → W → Prop)
    (guar : C → Tracked.View C A W → Prop) : Proc.Judge C A (Tracked.View C A W) :=
  Tracked.judge handle (fun _ _ => True) guar

/-- **Every call of a run keeps the guarantee**, if the processes that come in do. -/
theorem Pool.Run.abiding (hstart : ∀ w p, start w p → p.Abides (Tracked.judgeAlone handle guar))
    (hspawn : ∀ e, ∀ p ∈ spawns e, p.Abides (Tracked.judgeAlone handle guar)) (ha : a.threads = [])
    (h : Run (.tracked handle spawns start env) ok a b) :
    Run (.tracked handle spawns start env) (fun a e b => ok a e b ∧
      ∀ t ev, e = .ran t (some ev) → guar ev.call (a.world, t.own)) a b := by
  have hnew {p : Proc C A α} (hp : p.Abides (Tracked.judgeAlone handle guar)) (w : Traced C A W) :
      Tracked.Safe handle (fun _ _ => True) guar ⟨p, []⟩ w := ⟨(w, []), ⟨trivial, rfl⟩, hp (w, [])⟩
  have hkeeps : Keeps (.tracked handle spawns start env) ok (fun _ => True)
      (Tracked.Safe handle (fun _ _ => True) guar) := by
    refine ⟨?_, fun _ _ => ⟨trivial, fun t ht => ht.moved (fun _ _ => trivial) trivial⟩, ?_⟩
    · rintro ⟨p, own⟩ w ⟨hp, rfl⟩ -
      exact hnew (hstart w.world p hp) w
    · intro pre post new t t' w w' l hstep _ _ ht
      obtain ⟨-, hsafe⟩ := ht.step (fun _ => trivial) hstep
      refine ⟨trivial, hsafe, ?_, fun u _ hu => hu.moved (fun _ _ => trivial) trivial⟩
      obtain ⟨-, -, rfl⟩ := hstep
      intro n hn
      obtain ⟨p, hp, rfl⟩ := List.mem_map.mp hn
      cases l with
      | none => cases hp
      | some e => exact hnew (hspawn e.erase p hp) w'
  induction h with
  | refl => exact .refl _
  | tail hrun hlast ih =>
    obtain ⟨e, hs, hok⟩ := hlast
    obtain ⟨-, hsafe⟩ := Run.invariant hkeeps hrun trivial (by simp [ha])
    refine ih.tail hs ⟨hok, ?_⟩
    rintro t ev rfl
    cases hs with
    | run hstep => exact ((hsafe t (by simp)).step (fun _ => trivial) hstep).1 ev rfl
