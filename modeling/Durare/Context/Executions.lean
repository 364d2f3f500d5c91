import Durare.Context.Ops
import Mathlib.Logic.Relation

/-!
# Context/Executions — a workflow running, crashing, and running again

An execution is between two operations, inside one, or over.  `Exec.Step` is what it does on its
own; `Single.Step` adds the two things that happen to it when there is one execution at a time — it
crashes at any point and starts over from the beginning with a fresh counter, and the rest of the
system changes the world between two of its steps.
-/

namespace Durare

/-- Where an execution is. -/
inductive Exec (ε R : Type) : Type 1 where
  /-- about to run `q` with this state of the context -/
  | at (q : Workflow ε R) (s : CtxState)
  /-- inside the operation `o`, which found the context in state `s` -/
  | inside (o : Op) (s : CtxState) (p : Proc Eff Answer (Except Error o.Result × CtxState))
      (k : Except ε o.Result → Workflow ε R)
  | finished (r : R)

/-- What can be seen of a step. -/
inductive Label (R σ : Type) : Type 1 where
  | begin (o : Op) (seq : Int)
  /-- an effect of the operation that took `seq`, or the silent turn of a loop -/
  | inside (seq : Int) (e : Option (Proc.Event Eff Answer (World σ)))
  | returned (o : Op) (seq : Int) (r : Except Error o.Result)
  | finish (r : R)
  /-- a crash, and a new execution -/
  | restart
  /-- the rest of the system -/
  | env

variable {ε R : Type} [Serde DateTime]

/-- A step of one execution. -/
inductive Exec.Step (P : Provider) (ctx : DurableContext) (view : Error → ε) :
    Exec ε R → World P.State → Label R P.State → Exec ε R → World P.State → Prop where
  | begin {o : Op} {k : Except ε o.Result → Workflow ε R} {s : CtxState} {w : World P.State} :
      Step P ctx view (.at (.op o k) s) w (.begin o s.seq) (.inside o s (o.run P ctx s) k) w
  | inside {o : Op} {k : Except ε o.Result → Workflow ε R} {s : CtxState} {w w' : World P.State}
      {p p' : Proc Eff Answer (Except Error o.Result × CtxState)}
      {e : Option (Proc.Event Eff Answer (World P.State))} (h : Proc.Step P.handle p w e p' w') :
      Step P ctx view (.inside o s p k) w (.inside s.seq e) (.inside o s p' k) w'
  | returned {o : Op} {k : Except ε o.Result → Workflow ε R} {s s' : CtxState}
      {w : World P.State} {r : Except Error o.Result} :
      Step P ctx view (.inside o s (.ret (r, s')) k) w (.returned o s.seq r)
        (.at (k (r.mapError view)) s') w
  | finish {r : R} {s : CtxState} {w : World P.State} :
      Step P ctx view (.at (.done r) s) w (.finish r) (.finished r) w

/-- A world and the one execution in it. -/
structure Single (ε R σ : Type) where
  world : World σ
  exec : Exec ε R

namespace Single

/-- One execution at a time: it takes a step, is lost and begun again, or others move the world. -/
inductive Step (P : Provider) (ctx : DurableContext) (view : Error → ε) (p : Workflow ε R)
    (env : World P.State → World P.State → Prop) :
    Single ε R P.State → Label R P.State → Single ε R P.State → Prop where
  | exec {w w' : World P.State} {e e' : Exec ε R} {l : Label R P.State}
      (h : Exec.Step P ctx view e w l e' w') : Step P ctx view p env ⟨w, e⟩ l ⟨w', e'⟩
  | restart {w : World P.State} {e : Exec ε R} :
      Step P ctx view p env ⟨w, e⟩ .restart ⟨w, .at p {}⟩
  | env {w w' : World P.State} {e : Exec ε R} (h : env w w') :
      Step P ctx view p env ⟨w, e⟩ .env ⟨w', e⟩

/-- What is reached from the first execution in a world. -/
def Reachable (P : Provider) (ctx : DurableContext) (view : Error → ε) (p : Workflow ε R)
    (env : World P.State → World P.State → Prop) (w₀ : World P.State) (c : Single ε R P.State) :
    Prop :=
  Relation.ReflTransGen (fun a b => ∃ l, Step P ctx view p env a l b) ⟨w₀, .at p {}⟩ c

variable {P : Provider} {ctx : DurableContext} {view : Error → ε} {p : Workflow ε R}
  {env : World P.State → World P.State → Prop} {w₀ w w' : World P.State}

theorem Reachable.start : Reachable P ctx view p env w₀ ⟨w₀, .at p {}⟩ := .refl

variable {e : Exec ε R} {l : Label R P.State}

theorem Reachable.exec {e' : Exec ε R} (h : Reachable P ctx view p env w₀ ⟨w, e⟩)
    (hs : Exec.Step P ctx view e w l e' w') :
    Reachable P ctx view p env w₀ ⟨w', e'⟩ := h.tail ⟨l, .exec hs⟩

theorem Reachable.restart (h : Reachable P ctx view p env w₀ ⟨w, e⟩) :
    Reachable P ctx view p env w₀ ⟨w, .at p {}⟩ := h.tail ⟨_, .restart⟩

variable {Inv : Single ε R P.State → Prop} {c : Single ε R P.State}

/-- **An invariant of every step holds of everything reached.** -/
theorem Reachable.invariant (hinit : Inv ⟨w₀, .at p {}⟩)
    (hstep : ∀ a l b, Step P ctx view p env a l b → Inv a → Inv b)
    (h : Reachable P ctx view p env w₀ c) : Inv c := by
  induction h with
  | refl => exact hinit
  | tail _ hlast ih =>
    obtain ⟨l, hl⟩ := hlast
    exact hstep _ _ _ hl ih

/-- What is reached from the first execution in a world by steps that are `ok`. -/
def ReachableBy (P : Provider) (ctx : DurableContext) (view : Error → ε) (p : Workflow ε R)
    (env : World P.State → World P.State → Prop)
    (ok : Single ε R P.State → Label R P.State → Single ε R P.State → Prop) (w₀ : World P.State)
    (c : Single ε R P.State) : Prop :=
  Relation.ReflTransGen (fun a b => ∃ l, Step P ctx view p env a l b ∧ ok a l b) ⟨w₀, .at p {}⟩ c

section

variable {ok : Single ε R P.State → Label R P.State → Single ε R P.State → Prop}

theorem ReachableBy.exec {e' : Exec ε R} (h : ReachableBy P ctx view p env ok w₀ ⟨w, e⟩)
    (hs : Exec.Step P ctx view e w l e' w') (hok : ok ⟨w, e⟩ l ⟨w', e'⟩) :
    ReachableBy P ctx view p env ok w₀ ⟨w', e'⟩ :=
  h.tail ⟨l, .exec hs, hok⟩

theorem ReachableBy.restart (h : ReachableBy P ctx view p env ok w₀ ⟨w, e⟩)
    (hok : ok ⟨w, e⟩ .restart ⟨w, .at p {}⟩) : ReachableBy P ctx view p env ok w₀ ⟨w, .at p {}⟩ :=
  h.tail ⟨_, .restart, hok⟩

/-- **An invariant of every step that is `ok` holds of everything reached by such steps.** -/
theorem ReachableBy.invariant (hinit : Inv ⟨w₀, .at p {}⟩)
    (hstep : ∀ a l b, Step P ctx view p env a l b → ok a l b → Inv a → Inv b)
    (h : ReachableBy P ctx view p env ok w₀ c) : Inv c := by
  induction h with
  | refl => exact hinit
  | tail _ hlast ih =>
    obtain ⟨l, hl, hok⟩ := hlast
    exact hstep _ _ _ hl hok ih

end

/-- An execution left to itself. -/
def Proceeds (P : Provider) (ctx : DurableContext) (view : Error → ε) :
    Single ε R P.State → Single ε R P.State → Prop :=
  Relation.ReflTransGen fun a b => ∃ l, Exec.Step P ctx view a.exec a.world l b.exec b.world

theorem Proceeds.inside {o : Op} {k : Except ε o.Result → Workflow ε R} {s : CtxState}
    {q : Proc Eff Answer (Except Error o.Result × CtxState)}
    {es : List (Proc.Event Eff Answer (World P.State))} {a : Except Error o.Result × CtxState}
    (h : Proc.Runs P.handle (fun _ _ => False) q w es a w') :
    Proceeds P ctx view ⟨w, .inside o s q k⟩ ⟨w', .inside o s (.ret a) k⟩ := by
  induction h with
  | ret => exact .refl
  | call hr _ ih => exact .head ⟨_, .inside (.call hr)⟩ ih
  | unfold _ ih => exact .head ⟨_, .inside .unfold⟩ ih
  | env h => exact h.elim

end Single

end Durare
