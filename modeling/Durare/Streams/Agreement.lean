import Durare.Streams.Readers
import Mathlib.Order.Monotone.Basic

/-!
# Streams/Agreement — the two readers see the same stream

A `History` is what a backend shows of one stream and its producer at each moment, and a reader asks
its questions at moments of its own: it runs on the history **along** a schedule.  Both readers end
if they ask after the stream is finished; and if no value is appended once an existing producer is
not active, they have got the same values then: `readers_agree_iff`.  Without it they need not — a
producer that is only **delayed** is not active either.

The second half is about a producer that does not exist.  On every schedule both readers come to say
so, unless the stream is closed: then they never look.  And the incremental reader does not look
either while there is always more to read.
-/

namespace Durare

open List

open SealedLog

namespace History

/-- The stream only grows and is closed at most once; and when the producer has left `PENDING` and
`ENQUEUED`, it does not return, and no value is appended. -/
structure Regular (h : History) : Prop where
  grows : ∀ {t t'}, t ≤ t' → h.entries t <+: h.entries t'
  sealedOnce : ∀ t, (h.entries t).countP Option.isNone ≤ 1
  leaves : ∀ t t' t'', t ≤ t' → t' ≤ t'' → Live (h.status t) → ¬Live (h.status t') →
    ¬Live (h.status t'') ∧ values (h.entries t'') = values (h.entries t')

section

variable (h : History) (T : Type) [Serde T] (id key : String)

/-- What somebody finds who asks the `n`th question at the moment `τ n`. -/
def along (τ : Nat → Nat) : History := ⟨h.entries ∘ τ, h.status ∘ τ⟩

/-- A reader with this schedule returns `r`. -/
def Returns {α : Type} (τ : Nat → Nat) (reader : Proc ReadCall ReadAnswer α) (r : α) : Prop :=
  (h.along τ).Ends reader 0 fun a _ => a = r

/-- From the moment `t` on nothing more comes: the stream is closed or its producer is not active
any more, and it has all its values. -/
def Concluded (t : Nat) : Prop :=
  (isSealed (h.entries t) = true ∨ ∀ t' ≥ t, ¬Live (h.status t')) ∧
    ∀ t' ≥ t, visible (h.entries t') = visible (h.entries t)

/-- **Both readers end** whose schedule comes to such a moment. -/
def Finish : Prop := ∀ t τ, h.Concluded t → Monotone τ → (∃ n, t ≤ τ n) →
  (∃ r, h.Returns τ (drainStreamFrom T id key) r) ∧ ∃ r, h.Returns τ (streamValues T id key) r

/-- **The readers agree**, whatever their schedules: what the incremental one yields before it ends
is what the blocking one returns. -/
def Agree : Prop := ∀ τ τ', Monotone τ → Monotone τ' → ∀ (items got : List T) (closed : Bool),
  h.Returns τ (drainStreamFrom T id key) (.ok (items, closed)) →
    h.Returns τ' (streamValues T id key) (got.map .ok) → got = items

/-- **Both readers end and fail**, whatever their schedule, the incremental one perhaps after some
values. -/
def Fail : Prop := ∀ τ, Monotone τ →
  h.Returns τ (drainStreamFrom T id key) (.error (.nonExistentWorkflow id)) ∧
    ∃ got : List T,
      h.Returns τ (streamValues T id key) (got.map .ok ++ [.error (.nonExistentWorkflow id)])

/-- The producer does not exist. -/
def Absent : Prop := ∀ t, h.status t = none

/-- No value is appended once an existing producer is not active. -/
def Settled : Prop := ∀ t t' s, t ≤ t' → h.status t = some s → s.inactive = true →
  visible (h.entries t') = visible (h.entries t)

/-- The stream is never closed, and at some moment has all its values. -/
def Abandoned : Prop := (∀ t, isSealed (h.entries t) = false) ∧
  ∃ t, ∀ t' ≥ t, visible (h.entries t') = visible (h.entries t)

end

section

variable {h : History} {T : Type} [Serde T] {id key : String} {t t' : Nat} {s : Status}
  {τ : Nat → Nat} {items : List T}

/-! ## What the readers have got when they end -/

theorem watched (hr : h.Regular) (hdec : ∀ t, Decodable T (visible (h.entries t)))
    (hτ : Monotone τ) : (h.along τ).Watched T :=
  ⟨fun hle => hr.grows (hτ hle), fun n => hdec (τ n)⟩

theorem length_visible_le (hr : h.Regular)
    (hlast : ∀ t' ≥ t, visible (h.entries t') = visible (h.entries t)) (t' : Nat) :
    (visible (h.entries t')).length ≤ (visible (h.entries t)).length := by
  rcases le_total t t' with hle | hle
  · exact (congrArg length (hlast t' hle)).le
  · exact (visible_mono (hr.grows hle)).length_le

theorem Regular.finish (hr : h.Regular) (hdec : ∀ t, Decodable T (visible (h.entries t))) :
    h.Finish T id key := by
  rintro t τ ⟨hquiet, hlast⟩ hτ ⟨N, hN⟩
  have hwatched : (h.along τ).Watched T := watched hr hdec hτ
  have hover : (h.along τ).Over N := by
    intro n hn
    have hle (k : Nat) (hk : n ≤ k) : t ≤ τ k := hN.trans (hτ (hn.trans hk))
    rcases hquiet with hsealed | hdead
    · have hgrown := hr.grows (hle n (le_refl n))
      exact .inl (isSealed_iff.mpr (hgrown.subset (isSealed_iff.mp hsealed)))
    · exact .inr (hdead _ (hle (n + 1) n.le_succ))
  have hbound (n : Nat) := length_visible_le hr hlast (τ n)
  obtain ⟨es, r, m, hdrain, -⟩ := exists_drain hwatched hover Draining.init
  obtain ⟨es', r', m', hstream, -⟩ := exists_pulls hwatched hover hbound Ahead.init
  exact ⟨⟨r, es, r, m, hdrain, rfl⟩, r', es', r', m', hstream, rfl⟩

/-- Nothing more becomes visible once a reader may stop. -/
theorem Settled.stays (hsettled : h.Settled) (hr : h.Regular) (hle : t ≤ t') (hstops : h.Stops t) :
    visible (h.entries t') = visible (h.entries t) := by
  rcases hstops with hsealed | ⟨s, hs, hinactive⟩
  · exact visible_eq_of_sealed (hr.grows hle) hsealed
  · exact hsettled t t' s hle hs hinactive

/-- What a complete reader has got was there at a moment at which it may stop. -/
theorem Settled.complete (hsettled : h.Settled) (hr : h.Regular) (hτ : Monotone τ)
    (hc : (h.along τ).Complete items) :
    ∃ t, h.Stops t ∧ Decodes (visible (h.entries t)) items := by
  obtain ⟨n, m, hstops, hle, hitems⟩ := hc
  have hstays := hsettled.stays hr (hτ hle) hstops
  exact ⟨τ n, hstops, hstays ▸ hitems⟩

omit [Serde T] in
theorem map_ok_ne (got ts : List T) (e : Error) : got.map Except.ok ++ [.error e] ≠ ts.map .ok := by
  intro heq
  have herror : Except.error e ∈ ts.map Except.ok := by
    rw [← heq]
    simp
  simp at herror

/-- **Readers of a settled history agree.** -/
theorem Settled.agree (hsettled : h.Settled) (hr : h.Regular)
    (hdec : ∀ t, Decodable T (visible (h.entries t))) : h.Agree T id key := by
  intro τ τ' hτ hτ' items got closed hdrain hstream
  obtain ⟨_, _, _, -, rfl, -, hitems⟩ := hdrain.post (wp_drainStreamFrom (watched hr hdec hτ))
  obtain ⟨_, _, _, -, rfl, ⟨ts, hts, hgot⟩ | ⟨⟨ts, hts⟩, -⟩⟩ :=
    hstream.post (wp_streamValues (watched hr hdec hτ'))
  · obtain rfl : got = ts := map_injective_iff.mpr (fun _ _ heq => Except.ok.inj heq) hts
    obtain ⟨t₁, hstops₁, h₁⟩ := hsettled.complete hr hτ hitems
    obtain ⟨t₂, hstops₂, h₂⟩ := hsettled.complete hr hτ' hgot
    rcases le_total t₁ t₂ with hle | hle
    · exact h₂.unique (hsettled.stays hr hle hstops₁ ▸ h₁)
    · exact (h₁.unique (hsettled.stays hr hle hstops₂ ▸ h₂)).symm
  · exact absurd hts.symm (map_ok_ne ts got _)

/-- **Readers of an abandoned stream fail if its producer does not exist.** -/
theorem Abandoned.fail (hopen : h.Abandoned) (hr : h.Regular)
    (hdec : ∀ t, Decodable T (visible (h.entries t))) (habsent : h.Absent) : h.Fail T id key := by
  obtain ⟨hopen, t, hlast⟩ := hopen
  intro τ hτ
  have hwatched : (h.along τ).Watched T := watched hr hdec hτ
  have hover : (h.along τ).Over 0 := by
    rintro n -
    refine .inr ?_
    rintro ⟨s, hs, -⟩
    cases (habsent (τ (n + 1))).symm.trans hs
  have hnever {items : List T} : ¬(h.along τ).Complete items := by
    rintro ⟨n, -, hsealed | ⟨s, hs, -⟩, -⟩
    · cases (hopen (τ n)).symm.trans hsealed
    · cases (habsent (τ n)).symm.trans hs
  have hbound (n : Nat) := length_visible_le hr hlast (τ n)
  constructor
  · obtain ⟨es, r, m, hrun, -, hpost⟩ :=
      (exists_drain hwatched hover Draining.init).post (wp_drainStreamFrom hwatched)
    cases r with
    | ok x => exact absurd hpost.2 hnever
    | error e =>
      obtain ⟨rfl, -⟩ := hpost
      exact ⟨es, _, m, hrun, rfl⟩
  · obtain ⟨es, items, m, hrun, -, ⟨ts, -, hcomplete⟩ | ⟨⟨ts, rfl⟩, -⟩⟩ :=
      (exists_pulls hwatched hover hbound Ahead.init).post (wp_streamValues hwatched)
    · exact absurd hcomplete hnever
    · exact ⟨ts, es, _, m, hrun, rfl⟩

/-! ## The condition -/

/-- A drain that finds the stream closed returns it. -/
theorem returns_sealed (hall : Decodes (visible (h.entries t)) items)
    (hsealed : isSealed (h.entries t) = true) :
    h.Returns (fun _ => t) (drainStreamFrom T id key) (.ok (items, true)) := by
  have hstart : Draining (h.along fun _ => t) ({} : Drain T) 0 := Draining.init
  refine Proc.May.iter ((ends_drainRound hstart hall).mono ?_)
  rintro _ _ m ⟨-, rfl⟩
  unfold drained
  rw [show isSealed ((h.along fun _ => t).entries 0) = true from hsealed]
  exact Proc.May.ret rfl

/-- A drain that finds the producer inactive reads once more, perhaps later. -/
theorem returns_inactive (hr : h.Regular) (hdec : ∀ t, Decodable T (visible (h.entries t)))
    (hopen : isSealed (h.entries t) = false) (hs : h.status t = some s)
    (hinactive : s.inactive = true) (hle : t ≤ t')
    (hall : Decodes (visible (h.entries t')) items) :
    ∃ τ, Monotone τ ∧ h.Returns τ (drainStreamFrom T id key) (.ok (items, true)) := by
  let τ (n : Nat) : Nat := if n ≤ 1 then t else t'
  have hτ : Monotone τ := by
    intro n m hnm
    dsimp only [τ]
    split_ifs <;> omega
  obtain ⟨first, hfirst⟩ := (hdec t).exists
  have hstart : Draining (h.along τ) ({} : Drain T) 0 := Draining.init
  refine ⟨τ, hτ, Proc.May.iter ((ends_drainRound hstart hfirst).mono ?_)⟩
  rintro _ _ m ⟨hlt, rfl⟩
  have hstatus : (h.along τ).status (0 + 1) = some s := hs
  unfold drained at hlt ⊢
  rw [show isSealed ((h.along τ).entries 0) = false from hopen, hstatus] at hlt ⊢
  have hlate : τ m = t' := if_neg (by have := hlt rfl; omega)
  have hread : Decodes (visible ((h.along τ).entries m)) items := by
    change Decodes (visible (h.entries (τ m))) items
    rwa [hlate]
  have hnext := Draining.next (n := 0) (watched hr hdec hτ) hfirst hstatus (hlt rfl)
  refine Proc.May.iter ((ends_drainRound hnext hread).mono ?_)
  rintro _ _ _ ⟨-, rfl⟩
  unfold drained
  rw [hinactive, Bool.or_true]
  exact Proc.May.ret rfl

/-- **An incremental reader that is pulled while the producer is not active** yields what is visible
then. -/
theorem returns_streamValues (hr : h.Regular) (hdec : ∀ t, Decodable T (visible (h.entries t)))
    (hs : h.status t = some s) (hinactive : s.inactive = true)
    (hall : Decodes (visible (h.entries t)) items) :
    h.Returns (fun _ => t) (streamValues T id key) (items.map .ok) := by
  have hwatched : (h.along fun _ => t).Watched T := watched hr hdec fun _ _ _ => le_refl t
  have hover : (h.along fun _ => t).Over 0 := by
    rintro n -
    refine .inr ?_
    rintro ⟨s', hs', hactive⟩
    cases hs.symm.trans hs'
    cases hinactive.symm.trans hactive
  have hbound (n : Nat) : (visible ((h.along fun _ => t).entries n)).length ≤
      (visible (h.entries t)).length := le_refl _
  obtain ⟨es, got, m, hrun, -, ⟨ts, rfl, _, _, -, -, hts⟩ | ⟨-, ⟨n, hmissed⟩, -⟩⟩ :=
    (exists_pulls hwatched hover hbound Ahead.init).post (wp_streamValues hwatched)
  · exact ⟨es, _, m, hrun, congrArg (List.map Except.ok) (hts.unique hall)⟩
  · cases hs.symm.trans hmissed

theorem Agree.settled (hagree : h.Agree T id key) (hr : h.Regular)
    (hdec : ∀ t, Decodable T (visible (h.entries t))) : h.Settled := by
  intro t t' s hle hs hinactive
  have hgrown := hr.grows hle
  cases hsealed : isSealed (h.entries t) with
  | true => exact visible_eq_of_sealed hgrown hsealed
  | false =>
    obtain ⟨first, hfirst⟩ := (hdec t).exists
    obtain ⟨second, hsecond⟩ := (hdec t').exists
    obtain ⟨τ, hτ, hdrain⟩ := returns_inactive hr hdec hsealed hs hinactive hle hsecond
    obtain rfl := hagree τ (fun _ => t) hτ (fun _ _ _ => le_refl t) second first true hdrain
      (returns_streamValues hr hdec hs hinactive hfirst)
    refine ((visible_mono hgrown).eq_of_length ?_).symm
    rw [hfirst.length_eq, hsecond.length_eq]

/-- Readers that always fail have an abandoned stream. -/
theorem Fail.abandoned (hfail : h.Fail T id key) (hr : h.Regular)
    (hdec : ∀ t, Decodable T (visible (h.entries t))) : h.Abandoned := by
  constructor
  · intro t
    rw [← Bool.not_eq_true]
    intro hsealed
    obtain ⟨all, hall⟩ := (hdec t).exists
    have hreturns : h.Returns _ (drainStreamFrom T id key) _ := returns_sealed hall hsealed
    obtain ⟨_, _, _, -, rfl, hok⟩ := (hfail _ fun _ _ _ => le_refl t).1.post
      (hreturns.wp fun _ _ h => h)
    cases hok
  · by_contra hgrowing
    -- the schedule on which each question finds more than the one before it
    have hmore (t : Nat) : ∃ t' ≥ t,
        (visible (h.entries t)).length < (visible (h.entries t')).length := by
      by_contra hstays
      refine hgrowing ⟨t, fun t' hle => ?_⟩
      have hgrown := visible_mono (hr.grows hle)
      refine (hgrown.eq_of_length (hgrown.length_le.antisymm ?_)).symm
      exact not_lt.mp fun hlt => hstays ⟨t', hle, hlt⟩
    choose next hle hlt using hmore
    let τ (n : Nat) : Nat := next^[n + 1] 0
    have hsucc (n : Nat) : τ (n + 1) = next (τ n) := Function.iterate_succ_apply' next (n + 1) 0
    have hτ : Monotone τ := monotone_nat_of_le_succ fun n => hsucc n ▸ hle (τ n)
    have hgrows : StrictMono fun n => (visible (h.entries (τ n))).length :=
      strictMono_nat_of_lt_succ fun n => hsucc n ▸ hlt (τ n)
    obtain ⟨got, hstream⟩ := (hfail τ hτ).2
    obtain ⟨_, _, _, -, rfl, ⟨ts, hts, -⟩ | ⟨-, -, n, hread⟩⟩ :=
      hstream.post (wp_streamValues (watched hr hdec hτ))
    · exact map_ok_ne got ts _ hts
    · obtain hnone | ⟨k, hk, hsame⟩ := hread
      · have hfirst : 0 < (visible (h.entries (τ 0))).length := Nat.zero_lt_of_lt (hlt 0)
        have hfewer := hfirst.trans_le (hgrows.monotone n.zero_le)
        exact hfewer.ne' (Int.natCast_eq_zero.mp hnone)
      · exact (hgrows hk).ne' (Int.ofNat_inj.mp hsame)

/-- **The blocking and the incremental reader end and agree, and fail on a producer that does not
exist**, exactly if no value is appended once an existing producer is not active, and the stream of
a producer that does not exist is not closed and does not grow for ever. -/
theorem readers_agree_iff (hr : h.Regular) (hdec : ∀ t, Decodable T (visible (h.entries t))) :
    (h.Finish T id key ∧ h.Agree T id key ∧ (h.Absent → h.Fail T id key)) ↔
      h.Settled ∧ (h.Absent → h.Abandoned) :=
  ⟨fun ⟨_, hagree, hfail⟩ => ⟨hagree.settled hr hdec,
      fun habsent => (hfail habsent).abandoned hr hdec⟩,
    fun ⟨hsettled, habandoned⟩ => ⟨hr.finish hdec, hsettled.agree hr hdec,
      fun habsent => (habandoned habsent).fail hr hdec habsent⟩⟩

end

/-! ## Histories -/

/-- The producer runs at the moment 1; at the moment 2 it has written a value and succeeded. -/
def writing (first : Status) : History where
  entries t := if t ≤ 1 then [] else [some (.number (.int 7))]
  status t := if t = 0 then some first else if t = 1 then some .pending else some .success

theorem not_live_writing {first : Status} {t : Nat} (ht : 2 ≤ t) :
    ¬Live ((writing first).status t) := by
  have hstatus : (writing first).status t = some .success := by
    simp [writing, show t ≠ 0 by omega, show t ≠ 1 by omega]
  rw [hstatus]
  rintro ⟨s, hs, hactive⟩
  cases hs
  cases hactive

theorem regular_writing (first : Status) : (writing first).Regular where
  grows := by
    intro t t' hle
    by_cases ht : t ≤ 1
    · simp [writing, ht]
    · simp [writing, ht, show ¬t' ≤ 1 by omega]
  sealedOnce t := by
    change (if t ≤ 1 then [] else _ : List (Option Value)).countP Option.isNone ≤ 1
    split <;> simp
  leaves := by
    intro t t' t'' hle hle' hlive hleft
    have hlate : 2 ≤ t' := by
      by_contra hearly
      obtain rfl | rfl : t' = 0 ∨ t' = 1 := by omega
      · obtain rfl : t = 0 := by omega
        exact hleft hlive
      · exact hleft ⟨.pending, rfl, rfl⟩
    refine ⟨not_live_writing (by omega), ?_⟩
    simp [writing, show ¬t' ≤ 1 by omega, show ¬t'' ≤ 1 by omega]

theorem decodable_value (values : List Value) : Decodable Value values := fun v _ => ⟨v, rfl⟩

/-- A stream, perhaps closed, whose producer is not there. -/
def orphaned (closing : List (Option Value)) : History where
  entries _ := some (.number (.int 7)) :: closing
  status _ := none

theorem regular_orphaned {closing : List (Option Value)}
    (hclosing : closing.countP Option.isNone ≤ 1) : (orphaned closing).Regular where
  grows _ := prefix_refl _
  sealedOnce _ := by simpa [orphaned] using hclosing
  leaves := by
    rintro t _ _ - - ⟨s, hs, -⟩
    cases hs

/-- The readers of a producer that starts at once return its value, and those of a stream that was
left without a producer fail. -/
theorem readers_agree_pending :
    (∃ r, (writing .pending).Returns id (drainStreamFrom Value "w" "progress") r) ∧
    (writing .pending).Agree Value "w" "progress" ∧
    (orphaned []).Fail Value "w" "progress" := by
  have hsettled : (writing .pending).Settled := by
    intro t t' s hle hs hinactive
    have hlate : 2 ≤ t := by
      by_contra hearly
      obtain rfl | rfl : t = 0 ∨ t = 1 := by omega
      all_goals
        cases hs
        cases hinactive
    simp [writing, show ¬t ≤ 1 by omega, show ¬t' ≤ 1 by omega]
  have habandoned : (orphaned []).Abandoned := ⟨fun _ => rfl, 0, fun _ _ => rfl⟩
  have hregular : (orphaned []).Regular := regular_orphaned (Nat.zero_le 1)
  have hpresent : ¬(writing .pending).Absent := fun habsent => by cases habsent 0
  obtain ⟨hfinish, hagree, -⟩ :=
    (readers_agree_iff (regular_writing .pending) fun _ => decodable_value _).mpr
      ⟨hsettled, fun habsent => absurd habsent hpresent⟩
  refine ⟨(hfinish 2 id ?_ monotone_id ⟨2, le_refl 2⟩).1, hagree, ?_⟩
  · exact ⟨.inr fun t ht => not_live_writing ht, fun t ht => by
      simp [writing, show ¬t ≤ 1 by omega]⟩
  · refine ((readers_agree_iff hregular fun _ => decodable_value _).mpr
      ⟨?_, fun _ => habandoned⟩).2.2 fun _ => rfl
    intro _ _ _ _ hs
    cases hs

/-- **The readers of a delayed producer disagree**: the one who looks before it is put on its queue
takes the stream for complete.  And a closed stream is returned although its producer does not
exist. -/
theorem readers_disagree :
    ((writing .delayed).Regular ∧
      (∃ τ, Monotone τ ∧
        (writing .delayed).Returns τ (drainStreamFrom Value "w" "progress") (.ok ([], true))) ∧
      (writing .delayed).Returns (fun _ => 2) (streamValues Value "w" "progress")
        [.ok (.number (.int 7))]) ∧
    (orphaned [none]).Regular ∧ (orphaned [none]).Absent ∧
      (orphaned [none]).Returns (fun _ => 0) (drainStreamFrom Value "w" "progress")
        (.ok ([.number (.int 7)], true)) := by
  have hdelayed := regular_writing .delayed
  refine ⟨⟨hdelayed, ?_, ?_⟩, regular_orphaned (Nat.le_refl 1), fun _ => rfl, ?_⟩
  · exact returns_inactive hdelayed (fun _ => decodable_value _) (t := 0) rfl rfl rfl
      (le_refl 0) .nil
  · have hsuccess : (writing .delayed).status 2 = some .success := rfl
    exact returns_streamValues hdelayed (fun _ => decodable_value _) hsuccess rfl (.cons rfl .nil)
  · exact returns_sealed (.cons rfl .nil) rfl

end History

end Durare
