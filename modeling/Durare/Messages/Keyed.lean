import Durare.Store.Memory
import Mathlib.Data.List.Find

/-!
# Messages/Keyed — sends under an idempotency key

A keyed send stores its message under one id made of the key and the destination, `"key::dest"`, and
is dropped if a message with that id is there.  So of the sends with one id exactly the first is
stored (`underId_sendAll`).  Whether that is once for each **pair** of a key and a destination
depends on the pairs that occur: two of them can have one id.
-/

namespace Durare.Memory

open List

/-- A call of `insert_notification` with an idempotency key. -/
structure KeyedSend where
  key : String
  destinationId : String
  topic : String
  message : Value
  now : DateTime
  uuid : String

namespace KeyedSend

/-- The id the message is stored under. -/
def id (s : KeyedSend) : String := messageUuid s.uuid s.destinationId (some s.key)

/-- The row the call inserts, if it does. -/
def row (s : KeyedSend) : NotificationRow :=
  ⟨s.id, s.destinationId, s.topic, s.message, false, s.now.timestampMillis⟩

/-- The call. -/
def run (g : Inner) (s : KeyedSend) : Inner :=
  (insertNotification s.now s.uuid s.destinationId s.topic s.message (some s.key) g).2

/-- The calls have one key and one destination. -/
def SamePair (s t : KeyedSend) : Prop := s.key = t.key ∧ s.destinationId = t.destinationId

instance (s t : KeyedSend) : Decidable (s.SamePair t) := inferInstanceAs (Decidable (_ ∧ _))

theorem SamePair.id_eq {s t : KeyedSend} (h : s.SamePair t) : s.id = t.id := by
  change s.key ++ "::" ++ s.destinationId = t.key ++ "::" ++ t.destinationId
  rw [h.1, h.2]

/-- With one destination the id tells the keys apart. -/
theorem samePair_of_id {s t : KeyedSend} (hid : s.id = t.id)
    (hdest : s.destinationId = t.destinationId) : s.SamePair t := by
  refine ⟨?_, hdest⟩
  change s.key ++ "::" ++ s.destinationId = t.key ++ "::" ++ t.destinationId at hid
  rw [hdest] at hid
  exact (String.append_left_inj _).mp ((String.append_left_inj _).mp hid)

end KeyedSend

/-- The calls one after the other. -/
def sendAll (g : Inner) (sends : List KeyedSend) : Inner := sends.foldl KeyedSend.run g

/-- The messages stored for a destination under a key. -/
def storedFor (g : Inner) (s : KeyedSend) : List NotificationRow :=
  g.notifications.filter fun n => n.messageUuid = s.id && n.destinationId = s.destinationId

/-! ## One id -/

section

variable {g : Inner} {s : KeyedSend} {sends : List KeyedSend}

/-- The messages with an id. -/
def underId (g : Inner) (id : String) : List NotificationRow :=
  g.notifications.filter fun n => n.messageUuid = id

theorem underId_eq_nil {id : String} :
    underId g id = [] ↔ ¬∃ n ∈ g.notifications, n.messageUuid = id := by
  simp [underId, filter_eq_nil_iff]

/-- **One call**: the message is appended, unless its id is taken. -/
theorem run_eq (hdest : (g.workflows.lookup s.destinationId).isSome) : s.run g =
    { g with notifications := g.notifications ++ if underId g s.id = [] then [s.row] else [] } := by
  obtain ⟨hnone, -⟩ | ⟨-, ⟨-, hthere⟩, heq⟩ | ⟨-, hfresh, heq⟩ := insertNotification_cases s.now
    s.uuid s.destinationId s.topic s.message (some s.key) g
  · rw [hnone] at hdest
    cases hdest
  · have hid : underId g s.id ≠ [] := underId_eq_nil.not_left.mpr hthere
    rw [KeyedSend.run, heq, if_neg hid, append_nil]
  · have hid : underId g s.id = [] := underId_eq_nil.mpr fun h => hfresh ⟨rfl, h⟩
    rw [KeyedSend.run, heq, if_pos hid]
    rfl

/-- What the calls store under an id: what was there, and else the message of the first of them. -/
theorem underId_sendAll (id : String)
    (hdest : ∀ s ∈ sends, (g.workflows.lookup s.destinationId).isSome) :
    underId (sendAll g sends) id =
      if underId g id = [] then ((sends.find? fun s => s.id = id).map KeyedSend.row).toList
      else underId g id := by
  induction sends generalizing g with
  | nil =>
    split
    · next h => exact h
    · rfl
  | cons s sends ih =>
    have hrun := run_eq (hdest s mem_cons_self)
    have hrest : ∀ t ∈ sends, ((s.run g).workflows.lookup t.destinationId).isSome := by
      rw [hrun]
      exact fun t ht => hdest t (mem_cons_of_mem s ht)
    have hone : underId (s.run g) id =
        underId g id ++ if s.id = id ∧ underId g id = [] then [s.row] else [] := by
      rw [hrun, underId, filter_append]
      refine congrArg (underId g id ++ ·) ?_
      by_cases hid : s.id = id
      · subst hid
        split
        · simp [KeyedSend.row, *]
        · simp [*]
      · have hrow : s.row.messageUuid ≠ id := hid
        split
        · simp [hid, hrow]
        · simp [hid]
    rw [show sendAll g (s :: sends) = sendAll (s.run g) sends from rfl, ih hrest, hone,
      find?_cons]
    by_cases hid : s.id = id
    · by_cases hnil : underId g id = []
      · simp [hid, hnil]
      · simp [hid, hnil]
    · simp [hid]

end

/-! ## Pairs -/

/-- **Keyed sends deliver once for each key and destination exactly if no two pairs have one id.**
The calls are made to existing workflows, and nothing is stored under their ids before. -/
theorem keyed_sends_once_iff {g : Inner} {sends : List KeyedSend}
    (hdest : ∀ s ∈ sends, (g.workflows.lookup s.destinationId).isSome)
    (hfresh : ∀ s ∈ sends, underId g s.id = []) :
    (∀ s ∈ sends, ∃ first, sends.find? (fun t => t.SamePair s) = some first ∧
      storedFor (sendAll g sends) s = [first.row]) ↔
    ∀ s ∈ sends, ∀ t ∈ sends, s.id = t.id → s.SamePair t := by
  have hstored (s : KeyedSend) (hs : s ∈ sends) : ∃ f ∈ sends, f.id = s.id ∧
      sends.find? (fun t => t.id = s.id) = some f ∧
      storedFor (sendAll g sends) s = if f.destinationId = s.destinationId then
        [f.row] else [] := by
    obtain ⟨f, hf⟩ := Option.isSome_iff_exists.mp
      (find?_isSome.mpr ⟨s, hs, by simp⟩ : (sends.find? fun t => t.id = s.id).isSome)
    refine ⟨f, mem_of_find?_eq_some hf, by simpa using find?_some hf, hf, ?_⟩
    have hunder := underId_sendAll s.id hdest
    rw [if_pos (hfresh s hs), hf] at hunder
    have hboth : storedFor (sendAll g sends) s =
        (underId (sendAll g sends) s.id).filter fun n => n.destinationId = s.destinationId := by
      rw [storedFor, underId, filter_filter]
      exact congrArg (List.filter · _) (funext fun n => Bool.and_comm _ _)
    rw [hboth, hunder]
    by_cases hd : f.destinationId = s.destinationId
    · simp [KeyedSend.row, hd]
    · simp [KeyedSend.row, hd]
  constructor
  · intro h s hs t ht hid
    have hsame (u : KeyedSend) (hu : u ∈ sends) (f : KeyedSend)
        (hf : sends.find? (fun t => t.id = u.id) = some f) : f.destinationId = u.destinationId := by
      obtain ⟨first, -, hfirst⟩ := h u hu
      obtain ⟨f', -, -, hf', heq⟩ := hstored u hu
      obtain rfl : f = f' := Option.some.inj (hf.symm.trans hf')
      by_contra hne
      rw [if_neg hne, hfirst] at heq
      cases heq
    obtain ⟨f, -, -, hf, -⟩ := hstored s hs
    exact KeyedSend.samePair_of_id hid ((hsame s hs f hf).symm.trans (hsame t ht f (hid ▸ hf)))
  · intro h s hs
    obtain ⟨f, hmem, hid, hf, heq⟩ := hstored s hs
    have hpair := h f hmem s hs hid
    refine ⟨f, ?_, heq.trans (if_pos hpair.2)⟩
    rw [← hf]
    refine find?_congr fun t ht => ?_
    exact decide_eq_decide.mpr ⟨fun hp => hp.id_eq, h t ht s hs⟩

/-- Two workflows, one of them called `b::c`. -/
def twoBoxes : Inner :=
  let row (id : String) := WorkflowStatus.new ⟨0⟩ id "pay" .null .pending "local" "v1"
  (insertWorkflowStatus (row "c") (insertWorkflowStatus (row "b::c") {}).2).2

/-- A message under a key. -/
def keyedSend (key dest : String) (message : Int) : KeyedSend :=
  ⟨key, dest, "", .number (.int message), ⟨0⟩, ""⟩

theorem keyed_sends_once_retried : storedFor
    (sendAll twoBoxes [keyedSend "a" "c" 1, keyedSend "b" "c" 2, keyedSend "a" "c" 3])
      (keyedSend "a" "c" 3) = [(keyedSend "a" "c" 1).row] := by
  have hdest : ∀ s ∈ [keyedSend "a" "c" 1, keyedSend "b" "c" 2, keyedSend "a" "c" 3],
      (twoBoxes.workflows.lookup s.destinationId).isSome := by decide
  obtain ⟨first, hfirst, hstored⟩ := (keyed_sends_once_iff hdest fun _ _ => rfl).mpr (by decide)
    (keyedSend "a" "c" 3) (by simp)
  rw [hstored, ← Option.some.inj hfirst]

/-- **Two pairs with one id**: the second message is for another workflow, and is dropped. -/
theorem keyed_send_dropped :
    let sends := [keyedSend "a" "b::c" 1, keyedSend "a::b" "c" 2]
    (∀ s ∈ sends, (twoBoxes.workflows.lookup s.destinationId).isSome) ∧
      storedFor (sendAll twoBoxes sends) (keyedSend "a::b" "c" 2) = [] :=
  ⟨by decide, rfl⟩

end Durare.Memory
