import Durare.Debounce.Parties

/-!
# Debounce/Accepted — debounced calls and their collectors, interleaved

Any number of calls, made at any time, and executions of the collectors they start work on one store
in memory.  Every party may stop for good at any point; a collector is executed again, but never
twice at once.  The clock and the rest of the system move in between.

* `accepted_input_survives` — an accepted call is told the id of the one target its collector
  starts, and that one gets the input of the call or of a later message.
* `target_respected` — where calls for one key are for one target, the id is one of that target;
  `other_target_started` — where they are not, it may be another one.
-/

namespace Durare.Debounce

open List Option

open Memory

variable {ι : Type}

/-! ## Parties -/

/-- A call, or an execution of a collector, and what is left of it. -/
inductive Party (ι : Type) where
  | call (i : ι) (p : Proc Eff Answer (Except Error String × CtxState))
  | collector (i : ι) (m : Nat) (p : Proc Eff Answer (Except Error Value × CtxState))

namespace Party

/-- The collector a party executes. -/
def own : Party ι → Option (ι × Nat)
  | call _ _ => none
  | collector i m _ => some (i, m)

/-- One step of a party. -/
inductive Step (X : TextCodec) : Party ι → World Inner → Party ι → World Inner → Prop where
  | call {i : ι} {p p' : Proc Eff Answer (Except Error String × CtxState)} {w w' : World Inner}
      {e : Option (Proc.Event Eff Answer (World Inner))}
      (h : Proc.Step (provider X).handle p w e p' w') : Step X (call i p) w (call i p') w'
  | collector {i : ι} {m : Nat} {p p' : Proc Eff Answer (Except Error Value × CtxState)}
      {w w' : World Inner} {e : Option (Proc.Event Eff Answer (World Inner))}
      (h : Proc.Step (provider X).handle p w e p' w') :
      Step X (collector i m p) w (collector i m p') w'

/-- A call comes in, or a collector that is there is executed. -/
inductive Start [Serde DateTime] (X : TextCodec) (calls : ι → Call) (w : World Inner) :
    Party ι → Prop where
  | call (i : ι) : Start X calls w (call i ((calls i).runDebounce {}))
  | collector (i : ι) (m : Nat) {row : WorkflowStatus} (rt : Runtime) (auth : AuthContext)
      (hrow : w.store.workflows.lookup ((calls i).collectorId m) = some row) :
      Start X calls w (collector i m
        (runCollector (provider X) rt ((calls i).collectorId m) row.input auth {}))

end Party

/-- Calls and collectors over one store. -/
def debouncing [Serde DateTime] (X : TextCodec) (calls : ι → Call) :
    Threads (Party ι) (World Inner) Unit where
  step t w _ t' w' new := t.Step X w t' w' ∧ new = []
  start := Party.Start X calls
  env w w' := LeavesCalls calls w.store w'.store

/-- A collector is executed only while no other execution of it is around. -/
def OneAtATime : Pool (Party ι) (World Inner) → Pool.Happens (Party ι) Unit →
    Pool (Party ι) (World Inner) → Prop
  | a, .started t, _ => ∀ u ∈ a.threads, ∀ o, t.own = some o → u.own ≠ some o
  | _, _, _ => True

/-- An empty store. -/
def nobody (clock : DateTime) : Pool (Party ι) (World Inner) := ⟨⟨{}, clock⟩, []⟩

/-! ## The invariant of a run -/

variable {own : Option (ι × Nat)}

section

variable {X : TextCodec} {calls : ι → Call} {clock : DateTime} {c : Pool (Party ι) (World Inner)}
  {w w' : World Inner} {t t' : Party ι}

theorem Party.Step.own_eq (h : t.Step X w t' w') : t'.own = t.own := by
  cases h with
  | call => rfl
  | collector => rfl

theorem sharing_refl (w : World Inner) : (sharing X calls own).rely w w :=
  fun h => ⟨h, .refl _, fun _ _ _ => rfl⟩

theorem sharing_trans {a b c : World Inner} (h : (sharing X calls own).rely a b)
    (h' : (sharing X calls own).rely b c) :
    (sharing X calls own).rely a c := fun ha =>
  have hab := h ha
  have hbc := h' hab.ledger
  ⟨hbc.ledger, hab.grows.trans hbc.grows,
    fun i m ho => (hbc.log i m ho).trans (hab.log i m ho)⟩

/-- What is known of a party: it keeps the ledger, and a call that ends well has been accepted. -/
def Party.Sound (X : TextCodec) (calls : ι → Call) : Party ι → World Inner → Prop
  | .call i p, w => Proc.Safe (sharing X calls none) p
      (fun r w => Verb.IfOk (fun id _ w => Accepted calls w.store i id) r.1 r.2 w ∧
        Ledger calls w.store) w
  | .collector i m p, w => Proc.Safe (sharing X calls (some (i, m))) p (fun _ _ => True) w

theorem Party.Sound.env (h : t.Sound X calls w) (hm : Moved calls t.own w.store w'.store) :
    t.Sound X calls w' := by
  cases t with
  | call i p => exact Proc.Safe.env h sharing_trans fun _ => hm
  | collector i m p => exact Proc.Safe.env h sharing_trans fun _ => hm

/-- A step of a party keeps the ledger, and it stays sound. -/
theorem Party.Sound.step (h : t.Sound X calls w) (hw : Ledger calls w.store)
    (hs : t.Step X w t' w') : Kept calls t.own w.store w'.store ∧ t'.Sound X calls w' := by
  have hkept : ∀ {α : Type} {own : Option (ι × Nat)} {p p' : Proc Eff Answer α}
      {Q : α → World Inner → Prop} {e : Option (Proc.Event Eff Answer (World Inner))},
      Proc.Safe (sharing X calls own) p Q w → Proc.Step (provider X).handle p w e p' w' →
      Kept calls own w.store w'.store ∧ Proc.Safe (sharing X calls own) p' Q w' := by
    intro α own p p' Q e h hs
    obtain ⟨hguar, hsafe⟩ := Proc.wp_step sharing_refl h hs
    refine ⟨?_, hsafe⟩
    cases hs with
    | call hr => exact hguar _ rfl
    | unfold => exact .refl hw
  cases hs with
  | call hs => exact hkept h hs
  | collector hs => exact hkept h hs

/-- No collector has two executions. -/
def Alone (c : Pool (Party ι) (World Inner)) : Prop := (c.threads.filterMap Party.own).Nodup

variable [Serde DateTime]

theorem alone_step (a : Pool (Party ι) (World Inner)) (e : Pool.Happens (Party ι) Unit)
    (b : Pool (Party ι) (World Inner)) (hs : Pool.Step (debouncing X calls) a e b)
    (hok : OneAtATime a e b) (h : Alone a) : Alone b := by
  cases hs with
  | @run pre post new t t' w w' l hstep =>
    obtain ⟨hstep, rfl⟩ := hstep
    simp only [Alone, append_nil, filterMap_append, filterMap_cons,
      hstep.own_eq] at h ⊢
    exact h
  | @start ts t w hstart =>
    rw [Alone, filterMap_cons]
    cases ho : t.own with
    | none => exact h
    | some o =>
      refine nodup_cons.mpr ⟨fun hmem => ?_, h⟩
      obtain ⟨u, hu, huo⟩ := mem_filterMap.mp hmem
      exact hok u hu o ho huo
  | @lose pre post t w =>
    rw [Alone, filterMap_append] at h ⊢
    rw [filterMap_cons] at h
    cases ho : t.own with
    | none =>
      rw [ho] at h
      exact h
    | some o =>
      rw [ho] at h
      exact h.sublist (List.Sublist.append_left (sublist_cons_self _ _) _)
  | env => exact h

theorem Party.Start.sound (hd : Distinct calls) (h : Party.Start X calls w t)
    (hw : Ledger calls w.store) : t.Sound X calls w := by
  cases h with
  | call i => exact ⟨w, sharing_refl w, wp_ledger hw (spec_runDebounce hd hw)⟩
  | collector i m rt auth hrow =>
    rw [(hw.rows _ _ hrow).input i m rfl]
    exact ⟨w, sharing_refl w, spec_runCollector hd hw⟩

/-- **The invariant of a run.** -/
theorem sound_of_run (hd : Distinct calls)
    (hrun : Pool.Run (debouncing X calls) OneAtATime (nobody clock) c) :
    Ledger calls c.world.store ∧ ∀ t ∈ c.threads, t.Sound X calls c.world := by
  have hempty : Ledger calls (nobody clock : Pool (Party ι) (World Inner)).world.store :=
    ⟨fun _ _ h => (nomatch h), fun _ _ _ _ h => (nomatch h), fun _ _ _ _ h => (nomatch h),
      fun _ _ _ h => (nomatch h)⟩
  refine Pool.Run.invariant (G := fun w => Ledger calls w.store) (P := Party.Sound X calls)
    ⟨fun hstart hw => Party.Start.sound hd hstart hw, fun henv hw => ?_, ?_⟩
    (hrun.assuming alone_step nodup_nil) hempty (fun _ h => (nomatch h))
  · have hkept : Kept calls none _ _ := LeavesCalls.kept henv hw
    exact ⟨hkept.ledger, fun t ht => Party.Sound.env ht ⟨hkept.ledger, hkept.grows,
      fun i m _ => hkept.others i m (fun h => (nomatch h))⟩⟩
  · rintro pre post new t t' w w' l ⟨hs, rfl⟩ ⟨-, halone⟩ hw ht
    obtain ⟨hkept, ht'⟩ := ht.step hw hs
    refine ⟨hkept.ledger, ht', fun _ h => (nomatch h), fun u hu hsound => ?_⟩
    refine hsound.env ⟨hkept.ledger, hkept.grows, fun i m ho => hkept.others i m fun ho' => ?_⟩
    rw [Alone, filterMap_append, filterMap_cons, ho'] at halone
    have hnot := (nodup_middle.mp halone).notMem
    rw [← filterMap_append] at hnot
    exact hnot (mem_filterMap.mpr ⟨u, hu, ho⟩)

theorem accepted_of_run (hd : Distinct calls)
    (hrun : Pool.Run (debouncing X calls) OneAtATime (nobody clock) c) {i : ι} {id : String}
    {s : CtxState} (hcall : Party.call i (.ret (.ok id, s)) ∈ c.threads) :
    Ledger calls c.world.store ∧ Accepted calls c.world.store i id := by
  obtain ⟨hw, hsound⟩ := sound_of_run hd hrun
  obtain ⟨w₀, hrely, haccepted, hw₀⟩ := hsound _ hcall
  exact ⟨hw, haccepted.mono (hrely hw₀).grows⟩

end

/-! ## Two calls for one key -/

section

attribute [local instance] serdeNanos

/-- The uuids of a call: its letter, once more for each. -/
def letters (letter : Char) (n : Nat) : String := String.ofList (List.replicate (n + 1) letter)

/-- Two calls for one key, each with its own input; the second may be for another target. -/
def twoCalls (other : String) (second : Bool) : Call where
  caller := .client ""
  target := if second then other else "t"
  timeout := ⟨0⟩
  targetOpts := {}
  key := "k"
  delay := ⟨1000000000⟩
  input := .bool second
  draws := letters (if second then 'b' else 'a')

theorem distinct_twoCalls (other : String) : Distinct (twoCalls other) where
  inj i j k l h := by
    have hlist := replicate_inj.mp (String.ofList_injective h)
    refine ⟨?_, by omega⟩
    rcases hlist.2 with hzero | hletter
    · omega
    · cases i <;> cases j <;> first | rfl | exact absurd hletter (by decide)
  nonempty i k h := by
    have hlength := congrArg String.length h
    simp [twoCalls, letters] at hlength

/-- The next step of a party. -/
def Party.next : Party Bool → World Inner → Option (Party Bool × World Inner)
  | .call i p, w => (p.next (provider noText).answer w).map fun x => (.call i x.1, x.2)
  | .collector i m p, w => (p.next (provider noText).answer w).map fun x =>
    (.collector i m x.1, x.2)

variable {t : Party Bool}

theorem Party.step_next {t' : Party Bool} {w w' : World Inner} (h : t.next w = some (t', w')) :
    t.Step noText w t' w' := by
  cases t with
  | call i p =>
    obtain ⟨⟨p', w'⟩, hp, heq⟩ := map_eq_some_iff.mp h
    cases heq
    obtain ⟨e, hs⟩ := Proc.step_next Provider.handle_answer hp
    exact .call hs
  | collector i m p =>
    obtain ⟨⟨p', w'⟩, hp, heq⟩ := map_eq_some_iff.mp h
    cases heq
    obtain ⟨e, hs⟩ := Proc.step_next Provider.handle_answer hp
    exact .collector hs

/-- Some steps of a party.  Proofs do not look into it: it is evaluated by the kernel. -/
@[irreducible] def Party.advance (n : Nat) (t : Party Bool) (w : World Inner) :
    Party Bool × World Inner :=
  Pool.drive Party.next n t w

/-- The runs of the two calls and their collector. -/
def Reachable (other : String) (w : World Inner) (ts : List (Party Bool)) : Prop :=
  Pool.Run (debouncing noText (twoCalls other)) OneAtATime (nobody ⟨0⟩) ⟨w, ts⟩

theorem Reachable.advance {other : String} {w : World Inner} {ts : List (Party Bool)}
    (h : Reachable other w ts) (n i : Nat) (ht : ts[i]? = some t) :
    Reachable other (t.advance n w).2 (ts.set i (t.advance n w).1) := by
  unfold Party.advance
  exact Pool.Run.driveAt (T := debouncing noText (twoCalls other))
    (fun _ _ _ _ hstep => ⟨(), Party.step_next hstep, rfl⟩) (fun _ _ _ _ => trivial) i n h ht

/-- The id a call has returned. -/
def Party.returned : Party Bool → Option (Bool × String)
  | .call i (.ret (.ok id, _)) => some (i, id)
  | _ => none

theorem Party.eq_of_returned {i : Bool} {id : String} (h : t.returned = some (i, id)) :
    ∃ s, t = .call i (.ret (.ok id, s)) := by
  unfold Party.returned at h
  split at h
  · cases h
    exact ⟨_, rfl⟩
  · cases h

variable (other : String)

/-- The first call starts its collector and returns. -/
def opened := Party.advance 20 (.call false ((twoCalls other false).runDebounce {})) ⟨{}, ⟨0⟩⟩

/-- The second finds it, sends its input and waits. -/
def pushed :=
  Party.advance 40 (.call true ((twoCalls other true).runDebounce {})) (opened other).2

/-- The input stored for the collector. -/
def storedInput (w : World Inner) : Value :=
  ((w.store.workflows.lookup ((twoCalls other false).collectorId 0)).map (·.input)).getD .null

/-- The collector takes the input and acknowledges it. -/
def taken := Party.advance 60 (.collector false 0 (runCollector (provider noText)
  ⟨["t", "u"], [], "", ""⟩ ((twoCalls other false).collectorId 0)
  (storedInput other (pushed other).2) {} {})) (pushed other).2

/-- The second call returns. -/
def answered := (pushed other).1.advance 60 (taken other).2

/-- A second later the collector starts its target. -/
def fired := (taken other).1.advance 60 ⟨(answered other).2.store, ⟨1000000000⟩⟩

/-- What has to be computed for the run: the collector is there, and nobody executes it yet. -/
def Waits : Prop :=
  ((pushed other).2.store.workflows.lookup ((twoCalls other false).collectorId 0)).isSome ∧
    (pushed other).1.own = none ∧ (opened other).1.own = none

instance : Decidable (Waits other) := inferInstanceAs (Decidable (_ ∧ _ ∧ _))

variable {other}

theorem Waits.reached (h : Waits other) : Reachable other (fired other).2
    [(fired other).1, (answered other).1, (opened other).1] := by
  obtain ⟨hthere, hpushed, hopened⟩ := h
  obtain ⟨row, hrow⟩ := isSome_iff_exists.mp hthere
  have hstored : storedInput other (pushed other).2 = row.input := by rw [storedInput, hrow]; rfl
  have hcall : ∀ b w ts, Reachable other w ts →
      Reachable other w (.call b ((twoCalls other b).runDebounce {}) :: ts) := fun b _ _ h =>
    h.enter (Party.Start.call b) fun _ _ _ h => (nomatch h)
  have hopen : Reachable other (opened other).2 [(opened other).1] :=
    (hcall false _ _ (Pool.Run.refl _)).advance 20 0 rfl
  have hpush : Reachable other (pushed other).2 [(pushed other).1, (opened other).1] :=
    (hcall true _ _ hopen).advance 40 0 rfl
  have hstart : Reachable other (pushed other).2 [.collector false 0 (runCollector (provider noText)
      ⟨["t", "u"], [], "", ""⟩ ((twoCalls other false).collectorId 0) row.input {} {}),
      (pushed other).1, (opened other).1] :=
    hpush.enter (Party.Start.collector false 0 _ _ hrow) fun u hu o _ huo => by
      rcases mem_cons.mp hu with rfl | hu
      · cases hpushed.symm.trans huo
      · obtain rfl := mem_singleton.mp hu
        cases hopened.symm.trans huo
  rw [← hstored] at hstart
  have htake : Reachable other (taken other).2 [(taken other).1, (pushed other).1,
      (opened other).1] :=
    hstart.advance 60 0 rfl
  have hanswer : Reachable other (answered other).2
      [(taken other).1, (answered other).1, (opened other).1] :=
    htake.advance 60 1 rfl
  have hlate : Reachable other ⟨(answered other).2.store, ⟨1000000000⟩⟩
      [(taken other).1, (answered other).1, (opened other).1] :=
    hanswer.tail (.env (LeavesCalls.refl _)) trivial
  exact hlate.advance 60 0 rfl

end

/-! ## No accepted input is lost -/

/-- The stored input of a collector names the id of its target. -/
def Owns (calls : ι → Call) (g : Inner) (id : String) (j : ι) (m : Nat) : Prop :=
  ∃ row input, g.workflows.lookup ((calls j).collectorId m) = some row ∧
    DebouncerInput.read row.input = .ok input ∧ input.targetId = id

/-- Of the messages a collector received, `later` came after the input of the call `i`: the
collector was started with it, or received it in a message. -/
def ReceivedAfter (calls : ι → Call) (i j : ι) (received later : List DebounceMessage) : Prop :=
  j = i ∧ later = received ∨ ∃ n earlier, received = later ++ (calls i).message n :: earlier

/-- **The collector `(j, m)` answers for the call `i` under an id.** -/
structure AnswersFor (calls : ι → Call) (g : Inner) (i : ι) (id : String) (j : ι) (m : Nat) :
    Prop where
  owns : Owns calls g id j m
  alone : ∀ k n, Owns calls g id k n → k = j ∧ n = m
  /-- it starts no other run -/
  one : ∀ child row, g.workflows.lookup child = some row →
    row.parentWorkflowId = some ((calls j).collectorId m) → child = id
  /-- it starts the target with the input of the call, or of the last message after it -/
  input : ∀ row, g.workflows.lookup id = some row →
    row.parentWorkflowId = some ((calls j).collectorId m) ∧
    ∃ start r later,
      Halts ((calls j).debouncerInput m) (log g ((calls j).collectorId m)) start r ∧
      ReceivedAfter calls i j r.received later ∧
      row.input = (later.head?.map DebounceMessage.input).getD (calls i).input
  /-- it is not over before -/
  started : ∀ row, g.workflows.lookup ((calls j).collectorId m) = some row →
    row.status = .success → (g.workflows.lookup id).isSome

section

variable {calls : ι → Call} {g : Inner} {i j : ι} {m : Nat} {id : String}

theorem Ledger.owns_iff (h : Ledger calls g) : Owns calls g id j m ↔
    (g.workflows.lookup ((calls j).collectorId m)).isSome ∧ (calls j).targetId m = id := by
  constructor
  · rintro ⟨row, input, hrow, hinput, hid⟩
    rw [(h.rows _ row hrow).input j m rfl, read_debouncerInput] at hinput
    obtain rfl := Except.ok.inj hinput
    exact ⟨by rw [hrow]; rfl, hid⟩
  · rintro ⟨hsome, hid⟩
    obtain ⟨row, hrow⟩ := isSome_iff_exists.mp hsome
    refine ⟨row, (calls j).debouncerInput m, hrow, ?_, hid⟩
    rw [(h.rows _ row hrow).input j m rfl, read_debouncerInput]

/-- What the last round of a collector makes of the input of an accepted call. -/
theorem Ledger.receivedAfter (h : Ledger calls g) (hd : Distinct calls) {start : Int} {r : Round}
    (hhalts : Halts ((calls j).debouncerInput m) (log g ((calls j).collectorId m)) start r)
    (hown : j = i ∨ ∃ n, Took calls g j m ((calls i).messageId n)) :
    ∃ later, ReceivedAfter calls i j r.received later ∧ r.current ((calls j).debouncerInput m) =
      (later.head?.map DebounceMessage.input).getD (calls i).input := by
  rcases hown with rfl | ⟨n, start', r', msg, earlier, hleads, hreceived, hid⟩
  · exact ⟨r.received, .inl ⟨rfl, rfl⟩, rfl⟩
  · obtain ⟨k, l, -, rfl⟩ := h.received hleads msg (by rw [hreceived]; exact mem_cons_self)
    obtain ⟨rfl, rfl⟩ := hd.messageId hid
    have hsuffix := hhalts.received hleads
    rw [hreceived] at hsuffix
    obtain ⟨later, heq, hcurrent⟩ := Round.current_eq hsuffix
    exact ⟨later, .inr ⟨l, earlier, heq⟩, hcurrent⟩

end

/-- **No accepted input is lost.** -/
theorem accepted_input_survives [Serde DateTime] {X : TextCodec} {calls : ι → Call}
    {clock : DateTime} {c : Pool (Party ι) (World Inner)} (hd : Distinct calls)
    (hrun : Pool.Run (debouncing X calls) OneAtATime (nobody clock) c) {i : ι} {id : String}
    {s : CtxState} (hcall : Party.call i (.ret (.ok id, s)) ∈ c.threads) :
    ∃ j m, AnswersFor calls c.world.store i id j m := by
  obtain ⟨hw, j, m, rfl, hthere, -, hown⟩ := accepted_of_run hd hrun hcall
  refine ⟨j, m, hw.owns_iff.mpr ⟨hthere, rfl⟩, fun k n howns => ?_, fun child row hrow hparent =>
    ?_, fun row hrow => ?_, fun row hrow hsuccess => ?_⟩
  · exact hd.targetId (hw.owns_iff.mp howns).2
  · exact ((hw.rows child row hrow).child j m hparent).1
  · have hparent := (hw.rows _ row hrow).parent j m rfl
    obtain ⟨-, -, start, r, hhalts, hinput⟩ := (hw.rows _ row hrow).child j m hparent
    obtain ⟨later, hlater, hcurrent⟩ := hw.receivedAfter hd hhalts hown
    exact ⟨hparent, start, r, later, hhalts, hlater, hinput.trans hcurrent⟩
  · exact (hw.rows _ row hrow).ended j m rfl hsuccess

attribute [local instance] serdeNanos in
set_option maxRecDepth 4000 in
theorem accepted_input_survives_second :
    (∃ j m, AnswersFor (twoCalls "t") (fired "t").2.store true "a" j m) ∧
      ((fired "t").2.store.workflows.lookup "a").bind
        (fun row => (Serde.fromValue row.input : Except String Bool).toOption) = some true := by
  have hrun : Reachable "t" (fired "t").2 _ := Waits.reached (by decide +kernel)
  have hreturned : (answered "t").1.returned = some (true, "a") := by decide +kernel
  obtain ⟨s, hcall⟩ := Party.eq_of_returned hreturned
  refine ⟨accepted_input_survives (distinct_twoCalls "t") hrun (s := s) ?_, by decide +kernel⟩
  rw [← hcall]
  simp

/-! ## One target for a key -/

/-- **The id a call returns is one of its target**, if calls with one key have one target. -/
theorem target_respected [Serde DateTime] {X : TextCodec} {calls : ι → Call} {clock : DateTime}
    {c : Pool (Party ι) (World Inner)} (hd : Distinct calls)
    (hkeys : ∀ i j, (calls i).key = (calls j).key → (calls i).target = (calls j).target)
    (hrun : Pool.Run (debouncing X calls) OneAtATime (nobody clock) c) {i : ι} {id : String}
    {s : CtxState} (hcall : Party.call i (.ret (.ok id, s)) ∈ c.threads) :
    ∀ row, c.world.store.workflows.lookup id = some row → row.name = (calls i).target ∧
      ∃ k, (calls k).target = (calls i).target ∧ row.input = (calls k).input := by
  obtain ⟨hw, j, m, rfl, -, hkey, -⟩ := accepted_of_run hd hrun hcall
  intro row hrow
  have hok := hw.rows _ row hrow
  obtain ⟨-, hname, start, r, hhalts, hinput⟩ := hok.child j m (hok.parent j m rfl)
  refine ⟨hname.trans (hkeys j i hkey), ?_⟩
  cases hreceived : r.received with
  | nil =>
    refine ⟨j, hkeys j i hkey, hinput.trans ?_⟩
    rw [Round.current, hreceived]
    rfl
  | cons msg rest =>
    obtain ⟨k, n, hkey', rfl⟩ := hw.received hhalts.leads msg (by rw [hreceived]; simp)
    refine ⟨k, hkeys k i (hkey'.trans hkey), hinput.trans ?_⟩
    rw [Round.current, hreceived]
    rfl

attribute [local instance] serdeNanos in
set_option maxRecDepth 4000 in
theorem target_respected_second : ∃ row, (fired "t").2.store.workflows.lookup "a" = some row ∧
    row.name = (twoCalls "t" true).target ∧ ∃ k, (twoCalls "t" k).target =
      (twoCalls "t" true).target ∧ row.input = (twoCalls "t" k).input := by
  have hrun : Reachable "t" (fired "t").2 _ := Waits.reached (by decide +kernel)
  have hreturned : (answered "t").1.returned = some (true, "a") := by decide +kernel
  have hthere : ((fired "t").2.store.workflows.lookup "a").isSome := by decide +kernel
  obtain ⟨s, hcall⟩ := Party.eq_of_returned hreturned
  obtain ⟨row, hrow⟩ := isSome_iff_exists.mp hthere
  refine ⟨row, hrow, target_respected (distinct_twoCalls "t") (by decide) hrun (s := s) ?_ row hrow⟩
  rw [← hcall]
  simp

attribute [local instance] serdeNanos in
set_option maxRecDepth 4000 in
/-- **The second call is for another target** and gets the id of a run of the first one. -/
theorem other_target_started : ∃ c, Distinct (twoCalls "u") ∧
    Pool.Run (debouncing noText (twoCalls "u")) OneAtATime (nobody ⟨0⟩) c ∧
    (∃ s, Party.call true (.ret (.ok "a", s)) ∈ c.threads) ∧ (twoCalls "u" true).target = "u" ∧
    (c.world.store.workflows.lookup "a").map (·.name) = some "t" := by
  have hrun : Reachable "u" (fired "u").2 _ := Waits.reached (by decide +kernel)
  have hreturned : (answered "u").1.returned = some (true, "a") := by decide +kernel
  obtain ⟨s, hcall⟩ := Party.eq_of_returned hreturned
  refine ⟨_, distinct_twoCalls "u", hrun, ⟨s, ?_⟩, rfl, by decide +kernel⟩
  rw [← hcall]
  simp

end Durare.Debounce
