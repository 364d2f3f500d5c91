import Durare.Context.Footprints
import Durare.Context.Transactions

/-!
# Context/Journal — log and mail of a workflow, on either backend

The two backends store the same two things in different ways: a log of recorded operations, and the
messages sent to workflows.  A `Journal` is how they are read off the stored state, and
`Journal.Move` is everything an effect of a durable operation can do to them: nothing, record a row
unless one is there, deliver a message, or claim one.

`Journal.Lawful` says so of a backend, together with what the calls of `recv` answer;
`Backend.lawful` is the proof for the in-memory backend and for SQLite.
-/

namespace Durare

open List Option

/-- A message as a backend keeps it. -/
structure Letter (B : Type) where
  destination : String
  topic : String
  body : B
  consumed : Bool

/-- How the log and the mail are read off the state of a backend. -/
structure Journal (P : Provider) where
  Row : Type
  Body : Type
  log : P.State → Table (String × Int) Row
  name : Row → String
  output : Row → Option Body
  child : Row → Option String
  /-- what a row says when it is looked up -/
  outcome : Row → Except Error (Option StepOutcome)
  letters : P.State → List (Letter Body)
  /-- the value of a stored message -/
  read : Body → Except Error Value

namespace Journal

variable {P : Provider} (J : Journal P)

/-- The row of a workflow at a sequence number. -/
def row (g : P.State) (id : String) (seq : Int) : Option J.Row := (J.log g).lookup (id, seq)

/-- The message at place `i` is marked consumed. -/
structure Marks (i : Nat) (letter : Letter J.Body) (g g' : P.State) : Prop where
  before : (J.letters g)[i]? = some letter
  unconsumed : letter.consumed = false
  after : (J.letters g')[i]? = some { letter with consumed := true }

/-- A message of the workflow is claimed: marked consumed, and recorded at `seq` unless a row is
there. -/
structure Claim (id : String) (seq : Int) (name : String) (i : Nat) (letter : Letter J.Body)
    (g g' : P.State) : Prop where
  before : (J.letters g)[i]? = some letter
  unconsumed : letter.consumed = false
  destination : letter.destination = id
  mail : J.letters g' = (J.letters g).set i { letter with consumed := true }
  log : ∃ row, J.log g' = (J.log g).insertNew (id, seq) row ∧ J.name row = name ∧
    J.output row = some letter.body ∧
    J.outcome row = (J.read letter.body).map fun v => some (.output v)

/-- A send leaves the log alone and delivers a message, or none. -/
structure Delivers (g g' : P.State) : Prop where
  log : J.log g' = J.log g
  mail : J.letters g' = J.letters g ∨
    ∃ letter, J.letters g' = J.letters g ++ [letter] ∧ letter.consumed = false

/-- What an effect of a durable operation does to log and mail. -/
inductive Move (e : Eff) (g g' : P.State) : Prop where
  | quiet (hlog : J.log g' = J.log g) (hmail : J.letters g' = J.letters g)
  | record (key : String × Int) (row : J.Row) (hlog : J.log g' = (J.log g).insertNew key row)
      (hmail : J.letters g' = J.letters g)
  | deliver (letter : Letter J.Body) (hnew : letter.consumed = false) (hlog : J.log g' = J.log g)
      (hmail : J.letters g' = J.letters g ++ [letter])
  | claim {id topic : String} {seq : Int} {name : String} {i : Nat} {letter : Letter J.Body}
      (he : e = .provider (.consumeNotification id topic seq name))
      (h : J.Claim id seq name i letter g g')

/-- A backend that keeps its log and its mail as the durable operations expect. -/
structure Lawful : Prop where
  move : ∀ {e : Eff} {w w' : World P.State} {r : Answer e}, e.Durable → P.handle e w r w' →
    J.Move e w.store w'.store
  /-- a lookup answers what the row says -/
  lookup : ∀ {id : String} {seq : Int} {w w' : World P.State}
    {r : Except Error (Option RecordedStep)},
    P.handle (.provider (.getStepResult id seq)) w r w' →
      w' = w ∧ r = (J.row w.store id seq).elim (.ok none) fun row =>
        (J.outcome row).map fun o => o.map fun out => ⟨J.name row, out⟩
  /-- a lookup of a child answers the link in the row -/
  checkChild : ∀ {id : String} {seq : Int} {w w' : World P.State}
      {r : Except Error (Option (String × String))},
    P.handle (.provider (.checkChildWorkflow id seq)) w r w' →
      w' = w ∧ r = .ok ((J.row w.store id seq).bind fun row =>
        (J.child row).map fun child => (child, J.name row))
  /-- a send delivers a message, or none -/
  send : ∀ {dest topic : String} {message : Value} {key : Option String} {w w' : World P.State}
      {r : Except Error Unit},
    P.handle (.provider (.insertNotification dest topic message key)) w r w' →
      J.Delivers w.store w'.store
  /-- a message that is answered has been claimed, and is read from the claimed one if no row was
  there before -/
  consume : ∀ {id topic : String} {seq : Int} {name : String} {w w' : World P.State} {msg : Value},
    P.handle (.provider (.consumeNotification id topic seq name)) w (.ok (some msg)) w' →
      ∃ i letter, J.Claim id seq name i letter w.store w'.store ∧
        (J.row w.store id seq = none → J.read letter.body = .ok msg)
  /-- a null is recorded as a null, unless a row is there -/
  recordNull : ∀ {id : String} {seq : Int} {name : String} {started : Option Int}
      {w w' : World P.State} {out : StepOutcome},
    P.handle (.provider (.recordStepResult id seq name .null none started)) w (.ok out) w' →
      ∃ row, J.log w'.store = (J.log w.store).insertNew (id, seq) row ∧
        J.outcome row = .ok (some (.output .null))
  /-- the statements of a transactional step -/
  statements : ∀ id seq started opts, (P.runTransactionStep id seq started opts).Calls Eff.Durable

variable {J} {g g' : P.State}

theorem Delivers.move {e : Eff} (h : J.Delivers g g') : J.Move e g g' := by
  rcases h.mail with hmail | ⟨letter, hmail, hnew⟩
  · exact .quiet h.log hmail
  · exact .deliver letter hnew h.log hmail

variable {id : String} {seq : Int}

/-- **A row stays**, whatever the operations do. -/
theorem Move.row_stays {e : Eff} (h : J.Move e g g') {row : J.Row}
    (hrow : J.row g id seq = some row) : J.row g' id seq = some row := by
  rw [Journal.row] at hrow ⊢
  cases h with
  | quiet hlog _ => rw [hlog, hrow]
  | record key new hlog _ =>
    rw [hlog]
    exact AList.lookup_insertNew_of_some hrow _ _
  | deliver _ _ hlog _ => rw [hlog, hrow]
  | claim _ h =>
    obtain ⟨new, hlog, -⟩ := h.log
    rw [hlog]
    exact AList.lookup_insertNew_of_some hrow _ _

theorem row_of_lookup {row : Option J.Row} {rec : RecordedStep}
    (h : (.ok (some rec) : Except Error (Option RecordedStep)) = row.elim (.ok none) fun row =>
      (J.outcome row).map fun o => o.map fun out => ⟨J.name row, out⟩) :
    ∃ r, row = some r ∧ J.outcome r = .ok (some rec.outcome) ∧ J.name r = rec.name := by
  cases row with
  | none => cases h
  | some row =>
    rw [elim_some] at h
    cases hout : J.outcome row with
    | error e =>
      rw [hout] at h
      cases h
    | ok out =>
      rw [hout] at h
      cases out with
      | none => cases h
      | some out =>
        cases h
        exact ⟨row, rfl, hout, rfl⟩

theorem Claim.row {id : String} {seq : Int} {name : String} {i : Nat} {letter : Letter J.Body}
    {g g' : P.State} (h : J.Claim id seq name i letter g g') (hnone : J.row g id seq = none) :
    ∃ row, J.row g' id seq = some row ∧ J.name row = name ∧ J.output row = some letter.body ∧
      J.outcome row = (J.read letter.body).map fun v => some (.output v) := by
  obtain ⟨row, hlog, hrow⟩ := h.log
  refine ⟨row, ?_, hrow⟩
  rw [Journal.row] at hnone
  rw [Journal.row, hlog, AList.lookup_insertNew_self, hnone, getD_none]

variable {i : Nat}

theorem Claim.getElem? {name : String} {letter : Letter J.Body}
    (h : J.Claim id seq name i letter g g') (j : Nat) : (J.letters g')[j]? =
      if i = j then some { letter with consumed := true } else (J.letters g)[j]? := by
  rw [h.mail, getElem?_set]
  split
  · next hij =>
      subst hij
      rw [if_pos (List.getElem?_eq_some_iff.mp h.before).1]
  · rfl

theorem Marks.changed {letter : Letter J.Body} (h : J.Marks i letter g g') :
    (J.letters g')[i]? ≠ (J.letters g)[i]? := by
  rw [h.before, h.after]
  intro heq
  have hconsumed := congrArg Letter.consumed (Option.some.inj heq)
  rw [h.unconsumed] at hconsumed
  cases hconsumed

theorem Claim.marks {name : String} {letter : Letter J.Body}
    (h : J.Claim id seq name i letter g g') : J.Marks i letter g g' :=
  ⟨h.before, h.unconsumed, by rw [h.getElem?, if_pos rfl]⟩

/-- **Only a claim marks a message**, and it marks one. -/
theorem Move.claim_of_marks {e : Eff} (h : J.Move e g g') {letter : Letter J.Body}
    (hm : J.Marks i letter g g') :
    ∃ id topic seq name, e = .provider (.consumeNotification id topic seq name) ∧
      J.Claim id seq name i letter g g' := by
  have hi := (List.getElem?_eq_some_iff.mp hm.before).1
  cases h with
  | quiet _ hmail => exact absurd (by rw [hmail]) hm.changed
  | record _ _ _ hmail => exact absurd (by rw [hmail]) hm.changed
  | deliver _ _ _ hmail => exact absurd (by rw [hmail, getElem?_append_left hi]) hm.changed
  | @claim id topic seq name j other he h =>
    by_cases hij : j = i
    · subst hij
      obtain rfl : other = letter := Option.some.inj (h.before.symm.trans hm.before)
      exact ⟨id, topic, seq, name, he, h⟩
    · exact absurd (by rw [h.getElem?, if_neg hij]) hm.changed

end Journal

theorem map_modify {α β : Type} (f : α → β) (g : α → α) {l : List α} {i : Nat} {a : α}
    (h : l[i]? = some a) : (l.modify i g).map f = (l.map f).set i (f (g a)) := by
  rw [modify_eq_set_getElem?, h]
  simp [map_set]

/-! ## The in-memory backend -/

namespace Memory

/-- A message in memory. -/
def NotificationRow.letter (n : NotificationRow) : Letter Value :=
  ⟨n.destinationId, n.topic, n.message, n.consumed⟩

/-- Log and mail in memory: every row is an outcome. -/
def journal (X : TextCodec) : Journal (provider X) where
  Row := StepRow
  Body := Value
  log := Inner.steps
  name := StepRow.name
  output := StepRow.output
  child := StepRow.childWorkflowId
  outcome row := .ok (some (stepRowOutcome row))
  letters g := g.notifications.map NotificationRow.letter
  read := .ok

variable {X : TextCodec}

theorem oldest_letter {l : List NotificationRow} {id topic : String} {n : NotificationRow} {i : Nat}
    (h : oldest l id topic = some (n, i)) :
    (l.map NotificationRow.letter)[i]? = some n.letter ∧ n.letter.consumed = false ∧
      n.letter.destination = id ∧ (markConsumed l i).map NotificationRow.letter =
        (l.map NotificationRow.letter).set i { n.letter with consumed := true } := by
  obtain ⟨hn, hfresh, hdest, -⟩ := oldest_mem h
  exact ⟨by rw [getElem?_map, hn, map_some], hfresh, hdest, map_modify _ _ hn⟩

theorem insertWorkflowStatus_frame (status : WorkflowStatus) (g : Inner) :
    (insertWorkflowStatus status g).2.steps = g.steps ∧
      (insertWorkflowStatus status g).2.notifications = g.notifications := by
  obtain ⟨_, _, -, -, -, heq⟩ | ⟨-, heq⟩ := insertWorkflowStatus_cases status g
  · rw [heq]
    exact ⟨rfl, rfl⟩
  · rw [heq, insertWorkflowStatus.insert]
    split
    · exact ⟨rfl, rfl⟩
    · exact ⟨rfl, rfl⟩

theorem send_delivers (now : DateTime) (uuid dest topic : String) (message : Value)
    (key : Option String) (g : Inner) :
    (journal X).Delivers g (insertNotification now uuid dest topic message key g).2 := by
  obtain ⟨-, heq⟩ | ⟨-, -, heq⟩ | ⟨-, -, heq⟩ :=
    insertNotification_cases now uuid dest topic message key g
  all_goals rw [heq]
  · exact ⟨rfl, .inl rfl⟩
  · exact ⟨rfl, .inl rfl⟩
  · exact ⟨rfl, .inr ⟨_, map_append, rfl⟩⟩

variable {w' : World Inner}

theorem consume_cases {id topic : String} {seq : Int} {name : String} {w : World Inner}
    {r : Except Error (Option Value)}
    (h : (provider X).handle (.provider (.consumeNotification id topic seq name)) w r w') :
    (w' = w ∧ r = .ok none) ∨ ∃ i letter, (journal X).Claim id seq name i letter w.store w'.store ∧
        ((journal X).row w.store id seq = none → r = .ok (some letter.body)) := by
  rcases handle_consumeNotification h with ⟨-, hw, hr⟩ | ⟨n, i, ho, hw, hr⟩
  · exact .inl ⟨hw, hr⟩
  · obtain ⟨hletter, hfresh, hdest, hmarked⟩ := oldest_letter ho
    refine .inr ⟨i, n.letter, ⟨hletter, hfresh, hdest, ?_, ?_⟩, fun hnone => ?_⟩
    · rw [hw]
      exact hmarked
    · rw [hw]
      exact ⟨_, rfl, rfl, rfl, rfl⟩
    · have hlog : log w.store id seq = none := hnone
      rw [hr, hlog]
      rfl

theorem move_of_durable {e : Eff} {w : World Inner} {r : Answer e} (he : e.Durable)
    (h : (provider X).handle e w r w') : (journal X).Move e w.store w'.store := by
  cases e with
  | provider c =>
    cases c with
    | consumeNotification id topic seq name =>
      rcases consume_cases h with ⟨rfl, -⟩ | ⟨i, letter, hclaim, -⟩
      · exact .quiet rfl rfl
      · exact .claim rfl hclaim
    | insertNotification dest topic message key =>
      obtain ⟨uuid, rfl, rfl⟩ := Provider.handle_provider.mp h
      exact (send_delivers w.clock uuid dest topic message key w.store).move
    | insertWorkflowStatus status =>
      obtain ⟨_, rfl, rfl⟩ := Provider.handle_provider.mp h
      obtain ⟨hsteps, hmail⟩ := insertWorkflowStatus_frame status w.store
      exact .quiet hsteps (congrArg (List.map NotificationRow.letter) hmail)
    | recordStepResult | recordChildWorkflow | recordPatch =>
      obtain ⟨_, rfl, rfl⟩ := Provider.handle_provider.mp h
      exact .record _ _ rfl rfl
    | writeStream id key value functionId =>
      obtain ⟨_, rfl, rfl⟩ := Provider.handle_provider.mp h
      dsimp only [provider, call, writeStream]
      split_ifs
      · exact .quiet rfl rfl
      · exact .quiet rfl rfl
    | getWorkflowStatus | getStepResult | upsertEvent | getEventValue | checkChildWorkflow
    | getStepName =>
      obtain ⟨_, rfl, rfl⟩ := Provider.handle_provider.mp h
      exact .quiet rfl rfl
    | _ => exact he.elim
  | sql q => exact h.1.elim
  | elapsed | isCancelled | localRunning => exact he.elim
  | utcNow | produceNow | race =>
    obtain ⟨-, rfl⟩ := h
    exact .quiet rfl rfl
  | _ =>
    obtain rfl : w' = w := h
    exact .quiet rfl rfl

theorem journal_lawful (X : TextCodec) : (journal X).Lawful where
  move := move_of_durable
  lookup := by
    intro id seq w w' r h
    obtain ⟨rfl, rfl⟩ := handle_getStepResult h
    refine ⟨rfl, ?_⟩
    have hlog : (journal X).row w'.store id seq = log w'.store id seq := rfl
    rw [hlog]
    cases log w'.store id seq with
    | some row => rfl
    | none => rfl
  checkChild := by
    intro id seq w w' r h
    obtain ⟨_, rfl, rfl⟩ := Provider.handle_provider.mp h
    exact ⟨rfl, rfl⟩
  send := by
    intro dest topic message key w w' r h
    obtain ⟨uuid, rfl, rfl⟩ := Provider.handle_provider.mp h
    exact send_delivers w.clock uuid dest topic message key w.store
  consume := by
    intro id topic seq name w w' msg h
    rcases consume_cases h with ⟨-, hr⟩ | ⟨i, letter, hclaim, hr⟩
    · cases hr
    · refine ⟨i, letter, hclaim, fun hnone => ?_⟩
      cases hr hnone
      rfl
  recordNull := by
    intro id seq name started w w' out h
    obtain ⟨rfl, -⟩ := handle_recordStepResult h
    exact ⟨_, rfl, rfl⟩
  statements := fun _ _ _ _ => trivial

end Memory

/-! ## SQLite -/

/-- A null written by the serializer is read back as a null. -/
def Serializer.ReadsNull (s : Serializer) (X : TextCodec) : Prop :=
  ∀ text, s.encode X .null = .ok text → decode X s (some s.name) text = .ok .null

namespace Sqlite

/-- A message in the database: its text, and the format it was written in. -/
def NotificationRow.letter (n : NotificationRow) : Letter (String × Option String) :=
  ⟨n.destinationUuid, n.topic, (n.message, n.serialization), n.consumed⟩

/-- Log and mail in the database: a row without output and error has no outcome. -/
def journal (X : TextCodec) (s : Serializer) : Journal (provider X s) where
  Row := OperationRow
  Body := String × Option String
  log := Db.operationOutputs
  name := OperationRow.functionName
  output row := row.output.map fun text => (text, row.serialization)
  child := OperationRow.childWorkflowId
  outcome := stepOutcomeFrom X s
  letters db := db.notifications.map NotificationRow.letter
  read body := decode X s body.2 body.1

variable {X : TextCodec} {s : Serializer}

theorem oldest_letter {l : List NotificationRow} {id topic : String} {n : NotificationRow} {i : Nat}
    (h : oldest l id topic = some (n, i)) :
    (l.map NotificationRow.letter)[i]? = some n.letter ∧ n.letter.consumed = false ∧
      n.letter.destination = id ∧ (markConsumed l i).map NotificationRow.letter =
        (l.map NotificationRow.letter).set i { n.letter with consumed := true } := by
  have hmem := List.minOn?_mem h
  simp only [mem_filter, Bool.and_eq_true, Bool.not_eq_true', decide_eq_true_eq] at hmem
  have hn := mk_mem_zipIdx_iff_getElem?.mp hmem.1
  exact ⟨by rw [getElem?_map, hn, map_some], hmem.2.1.1, hmem.2.1.2,
    map_modify _ _ hn⟩

/-- A consumption finds the mailbox empty or fails, or claims a message and answers it. -/
theorem consume_cases (id topic : String) (seq : Int) (name : String) (db : Db) :
    ((consumeNotification X s id topic seq name db).2 = db ∧
      ∀ msg, (consumeNotification X s id topic seq name db).1 ≠ .ok (some msg)) ∨
    ∃ i letter, (journal X s).Claim id seq name i letter db
        (consumeNotification X s id topic seq name db).2 ∧
      (consumeNotification X s id topic seq name db).1 =
        ((journal X s).read letter.body).map some := by
  unfold consumeNotification
  split
  · exact .inl ⟨rfl, fun _ h => by cases h⟩
  · next n i ho =>
      obtain ⟨hletter, hfresh, hdest, hmarked⟩ := oldest_letter ho
      dsimp only
      split
      · exact .inl ⟨rfl, fun _ h => by cases h⟩
      · next db' hinsert =>
          refine .inr ⟨i, n.letter, ⟨hletter, hfresh, hdest, hmarked, ?_⟩, rfl⟩
          exact ⟨_, congrArg Db.operationOutputs (insertOperation_ok hinsert), rfl, rfl, rfl⟩

theorem send_delivers (now : DateTime) (uuid dest topic : String) (message : Value)
    (key : Option String) (db : Db) :
    (journal X s).Delivers db (insertNotification X s now uuid dest topic message key db).2 := by
  unfold insertNotification
  dsimp only
  split
  · exact ⟨rfl, .inl rfl⟩
  · split_ifs
    · exact ⟨rfl, .inl rfl⟩
    · exact ⟨rfl, .inl rfl⟩
    · exact ⟨rfl, .inr ⟨_, map_append, rfl⟩⟩

theorem move_insert {e : Eff} {id : String} {seq : Int} {row : OperationRow} {db db' : Db}
    (h : insertOperation id seq row db = .ok db') : (journal X s).Move e db db' := by
  rw [insertOperation_ok h]
  exact .record (id, seq) row rfl rfl

theorem move_insertOnly {e : Eff} (id : String) (seq : Int) (row : OperationRow) (db : Db) :
    (journal X s).Move e db (insertOnly id seq row db).2 := by
  unfold insertOnly
  split
  · exact .quiet rfl rfl
  · next db' h => exact move_insert h

theorem move_call {c : ProviderCall} (hc : c.Durable) (now : DateTime) (uuid : String) (db : Db) :
    (journal X s).Move (.provider c) db (call X s c now uuid db).2 := by
  cases c with
  | consumeNotification id topic seq name =>
    rcases consume_cases id topic seq name db with ⟨hdb, -⟩ | ⟨i, letter, hclaim, -⟩
    · exact .quiet (congrArg Db.operationOutputs hdb)
        (congrArg (fun db => db.notifications.map NotificationRow.letter) hdb)
    · exact .claim rfl hclaim
  | insertNotification dest topic message key =>
    exact (send_delivers now uuid dest topic message key db).move
  | insertWorkflowStatus status =>
    change (journal X s).Move _ db (insertWorkflowStatus X s now status db).2
    unfold insertWorkflowStatus
    split
    · exact .quiet rfl rfl
    · split
      · exact .quiet rfl rfl
      · dsimp only
        split_ifs
        · exact .quiet rfl rfl
        · exact .quiet rfl rfl
  | recordStepResult id seq name value error started =>
    change (journal X s).Move _ db (recordStepResult X s now id seq name value error started db).2
    unfold recordStepResult
    dsimp only
    split
    · exact .quiet rfl rfl
    · split
      · exact .quiet rfl rfl
      · next db' h => exact move_insert h
  | recordChildWorkflow id seq name child => exact move_insertOnly _ _ _ _
  | recordPatch id seq name => exact move_insertOnly _ _ _ _
  | writeStream id key value functionId =>
    change (journal X s).Move _ db (writeStream X s id key value functionId db).2
    unfold writeStream
    dsimp only
    split
    · exact .quiet rfl rfl
    · split_ifs
      · exact .quiet rfl rfl
      · exact .quiet rfl rfl
      · exact .quiet rfl rfl
  | upsertEvent id key value =>
    change (journal X s).Move _ db (upsertEvent X s id key value db).2
    unfold upsertEvent
    split
    · exact .quiet rfl rfl
    · split_ifs
      · exact .quiet rfl rfl
      · exact .quiet rfl rfl
  | getStepResult id seq =>
    change (journal X s).Move _ db (getStepResult X s id seq db).2
    unfold getStepResult
    split
    · exact .quiet rfl rfl
    · exact .quiet rfl rfl
  | getEventValue id key =>
    change (journal X s).Move _ db (getEventValue X s id key db).2
    unfold getEventValue
    split
    · exact .quiet rfl rfl
    · exact .quiet rfl rfl
  | getWorkflowStatus | checkChildWorkflow | getStepName => exact .quiet rfl rfl
  | _ => exact hc.elim

theorem move_sql {q : SqlCall} {db db' : Db} {r : Except Error q.Result} (h : sql q db r db') :
    (journal X s).Move (.sql q) db db' := by
  cases q with
  | commit id seq writes row =>
    rcases h with ⟨-, rfl⟩ | ⟨-, rfl⟩
    · exact .record (id, seq) row rfl rfl
    · exact .quiet rfl rfl
  | insertFailure id seq row =>
    rcases h with ⟨db₁, hinsert, rfl, -⟩ | ⟨-, rfl⟩
    · exact move_insert hinsert
    · exact .quiet rfl rfl
  | body id seq =>
    obtain rfl : db' = db := h
    exact .quiet rfl rfl
  | selectOperation | «begin» | rollback | insertOperation | selectStatus =>
    obtain ⟨-, rfl⟩ := h
    exact .quiet rfl rfl

theorem move_of_durable {e : Eff} {w w' : World Db} {r : Answer e} (he : e.Durable)
    (h : (provider X s).handle e w r w') : (journal X s).Move e w.store w'.store := by
  cases e with
  | provider c =>
    obtain ⟨uuid, -, rfl⟩ := Provider.handle_provider.mp h
    exact move_call he w.clock uuid w.store
  | sql q => exact move_sql h.1
  | elapsed | isCancelled | localRunning => exact he.elim
  | utcNow | produceNow | race =>
    obtain ⟨-, rfl⟩ := h
    exact .quiet rfl rfl
  | _ =>
    obtain rfl : w' = w := h
    exact .quiet rfl rfl

theorem journal_lawful (hs : s.ReadsNull X) : (journal X s).Lawful where
  move := move_of_durable
  lookup := by
    intro id seq w w' r h
    obtain ⟨uuid, rfl, rfl⟩ := Provider.handle_provider.mp h
    have hrow : (journal X s).row w.store id seq = w.store.operationOutputs.lookup (id, seq) := rfl
    have hcall : (provider X s).call (.getStepResult id seq) w.clock uuid w.store =
        getStepResult X s id seq w.store := rfl
    rw [hcall, hrow]
    unfold getStepResult
    cases w.store.operationOutputs.lookup (id, seq) with
    | some row => exact ⟨rfl, rfl⟩
    | none => exact ⟨rfl, rfl⟩
  checkChild := by
    intro id seq w w' r h
    obtain ⟨_, rfl, rfl⟩ := Provider.handle_provider.mp h
    exact ⟨rfl, rfl⟩
  send := by
    intro dest topic message key w w' r h
    obtain ⟨uuid, rfl, rfl⟩ := Provider.handle_provider.mp h
    exact send_delivers w.clock uuid dest topic message key w.store
  consume := by
    intro id topic seq name w w' msg h
    obtain ⟨uuid, hr, rfl⟩ := Provider.handle_provider.mp h
    rcases consume_cases id topic seq name w.store with ⟨-, hnone⟩ | ⟨i, letter, hclaim, hread⟩
    · exact absurd hr.symm (hnone msg)
    · refine ⟨i, letter, hclaim, fun _ => ?_⟩
      have hok : ((journal X s).read letter.body).map some = .ok (some msg) :=
        hread.symm.trans hr.symm
      cases hbody : (journal X s).read letter.body with
      | error e =>
        rw [hbody] at hok
        cases hok
      | ok v =>
        rw [hbody] at hok
        cases hok
        rfl
  recordNull := by
    intro id seq name started w w' out h
    obtain ⟨uuid, hr, rfl⟩ := Provider.handle_provider.mp h
    have hcall : (provider X s).call (.recordStepResult id seq name .null none started) w.clock uuid
        w.store = recordStepResult X s w.clock id seq name .null none started w.store := rfl
    rw [hcall] at hr ⊢
    cases htext : s.encode X .null with
    | error e => simp [recordStepResult, htext, Except.map] at hr
    | ok text =>
      have hread := hs text htext
      simp only [recordStepResult, htext, Except.map, isSome_none, Bool.false_eq_true,
        if_false] at hr ⊢
      cases hinsert : insertOperation id seq
          (resultRow s w.clock name (some text) none started) w.store with
      | error e =>
        rw [hinsert] at hr
        cases hr
      | ok db' =>
        refine ⟨_, congrArg Db.operationOutputs (insertOperation_ok hinsert), ?_⟩
        simp only [journal, stepOutcomeFrom, resultRow, hread, Except.map]
  statements := fun _ _ _ _ => calls_runTransactionStep.mono fun e he => by cases he <;> trivial

end Sqlite

/-! ## The backends -/

/-- The backends that share this code. -/
inductive Backend where
  | memory (X : TextCodec)
  | sqlite (X : TextCodec) (s : Serializer) (hs : s.ReadsNull X)

namespace Backend

def provider : Backend → Provider
  | memory X => Memory.provider X
  | sqlite X s _ => Sqlite.provider X s

def journal : (b : Backend) → Journal b.provider
  | memory X => Memory.journal X
  | sqlite X s _ => Sqlite.journal X s

theorem lawful : (b : Backend) → b.journal.Lawful
  | memory X => Memory.journal_lawful X
  | sqlite _ _ hs => Sqlite.journal_lawful hs

end Backend

end Durare
