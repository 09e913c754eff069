import Mathlib.Data.List.DropRight
import IndexingPipeline.Proofs.Actions

/-!
# Several writers of one action

Operators pause, resume and cancel an action, workers count its jobs anew and add events to it, all
at once. Each reads the row, works out what to write, and writes it under the version that it read.
These are separate steps, and between any two of them others may take any number of theirs, so that
a row may be as old as one likes by the time it is written back. Whatever the order, the row is what
the writes that took effect make of it one after the other, each from the row as the one before left
it.
-/

namespace IndexingPipeline

/-- What is seen beside the row: the jobs as they were counted, the jobs when those that failed
were listed, and the clock. -/
structure Sight where
  counted : Queue
  listed : Queue
  now : Int

/-- What a party wants of an action. -/
inductive Errand where
  | control (c : Control)
  | refresh
  | append (level message : String) (documentId : Option String)
  deriving DecidableEq, Repr

/-- A write that took effect: the place of the party, what it wanted and what it saw. -/
structure Entry where
  place : Nat
  errand : Errand
  sight : Sight

inductive ActionStatus.Leads : ActionStatus → ActionStatus → Prop
  | done : Leads .processing .done
  | error : Leads .processing .error
  | paused : Leads .processing .paused
  | canceled : Leads .processing .canceled
  | resumed : Leads .paused .processing
  | dropped : Leads .paused .canceled

theorem ActionStatus.Leads.left {a b : ActionStatus} (h : a.Leads b) : a.isTerminal = false := by
  cases h <;> rfl

/-- Of the last events and others behind them, the last so many are the last of all. -/
theorem rtake_kept {α : Type} (xs ys : List α) (most : Nat) :
    (xs.rtake most ++ ys).rtake most = (xs ++ ys).rtake most := by
  simp only [List.rtake, List.length_append, List.drop_append, List.drop_drop, List.length_drop]
  congr 2
  · omega
  · omega

namespace Action

variable (s : ActionSettings)

def announced (q : Queue) (now : Int) (a : Action) : List ActionEvent :=
  if a.status = .processing then
    match (a.refreshed s q now).status with
    | .done => [⟨now, "info", "indexing completed", none⟩]
    | .error => [⟨now, "error", (a.refreshed s q now).displayText, none⟩]
    | _ => []
  else []

/-- The events of an action when some more were said of it, of which only the last are kept. -/
def eventsAfter (a : Action) (said : List ActionEvent) : List ActionEvent :=
  if said = [] then a.report.events else (a.report.events ++ said).rtake s.maxEvents

theorem refreshed_events (q : Queue) (now : Int) (a : Action) :
    (a.refreshed s q now).report.events = a.eventsAfter s (a.announced s q now) := by
  by_cases processing : a.status = .processing
  · simp only [announced, refreshed, processing, if_true, settled]
    cases (Progress.ofCounts (q.counts a.scope)).ending with
    | some ending => cases ending <;> rfl
    | none =>
      by_cases overdue : (recounted s q a).isOverdue s now = true
      · simp only [overdue, if_true]
        rfl
      · simp only [overdue, if_false, Bool.false_eq_true]
        have status : (recounted s q a).status = .processing := processing
        simp only [status]
        rfl
  · simp only [announced, refreshed, processing, if_false]
    rfl

/-- The action as the jobs and the time demand, when the jobs are counted first and then listed. -/
def refreshedSeeing (v : Sight) (a : Action) : Action :=
  let next := a.refreshed s v.counted v.now
  if 0 < next.report.failedCount then
    { next with report := { next.report with
        failed := failedOf v.listed a.scope s.maxFailedListed } }
  else next

/-- Only the list of those that failed comes from the jobs as they were listed. -/
theorem refreshedSeeing_eq (v : Sight) (a : Action) : ∃ failed,
    a.refreshedSeeing s v = { a.refreshed s v.counted v.now with
      report := { (a.refreshed s v.counted v.now).report with failed } } := by
  by_cases any : 0 < (a.refreshed s v.counted v.now).report.failedCount
  · exact ⟨_, if_pos any⟩
  · exact ⟨_, if_neg any⟩

/-- When no job changes in between, it does not matter that the jobs are looked at twice. -/
theorem refreshedSeeing_once (q : Queue) (now : Int) (a : Action) :
    a.refreshedSeeing s ⟨q, q, now⟩ = a.refreshed s q now := by
  obtain ⟨status, stage, displayText, events, eq⟩ := a.refreshed_eq s q now
  simp only [refreshedSeeing]
  by_cases any : 0 < (a.refreshed s q now).report.failedCount
  · rw [if_pos any]
    rw [eq] at any ⊢
    have listed : (recounted s q a).report.failed = failedOf q a.scope s.maxFailedListed :=
      if_pos any
    simp only [listed]
  · exact if_neg any

end Action

namespace Errand

variable (s : ActionSettings) (v : Sight)

/-- Whether there is anything to write, by the row that was read. -/
def proceeds : Errand → Action → Bool
  | .control c, a => c.isAllowed a.status
  | .refresh, a => !a.status.isTerminal
  | .append _ _ _, _ => true

/-- The row that takes the place of the one that was read, under the same version. -/
def next : Errand → Action → Action
  | .control c, a => a.controlled s v.now c
  | .refresh, a => a.refreshedSeeing s v
  | .append level message documentId, a =>
    { a with
      report := a.report.push s.maxEvents ⟨v.now, level, message, documentId⟩
      updatedAt := v.now }

def write (e : Errand) (a : Action) : Action :=
  { e.next s v a with rowVersion := (e.next s v a).rowVersion + 1 }

def said : Errand → Action → List ActionEvent
  | .control c, _ => [⟨v.now, "info", c.texts.1, none⟩]
  | .refresh, a => a.announced s v.counted v.now
  | .append level message documentId, _ => [⟨v.now, level, message, documentId⟩]

variable (e : Errand) (a : Action)

theorem next_sameStart : a.SameStart (e.next s v a) := by
  cases e with
  | control | append => exact ⟨rfl, rfl, rfl, rfl, rfl⟩
  | refresh =>
    obtain ⟨failed, eq⟩ := a.refreshedSeeing_eq s v
    have same := a.refreshed_sameStart s v.counted v.now
    rw [next, eq]
    exact ⟨same.id, same.workspace, same.base, same.created, same.settings⟩

theorem next_rowVersion : (e.next s v a).rowVersion = a.rowVersion := by
  cases e with
  | control | append => rfl
  | refresh =>
    obtain ⟨failed, eq⟩ := a.refreshedSeeing_eq s v
    rw [next, eq]
    exact a.refreshed_rowVersion s v.counted v.now

theorem write_rowVersion : (e.write s v a).rowVersion = a.rowVersion + 1 :=
  congrArg (· + 1) (e.next_rowVersion s v a)

theorem write_id : (e.write s v a).id = a.id := (e.next_sameStart s v a).id

theorem write_events : (e.write s v a).report.events = a.eventsAfter s (e.said s v a) := by
  cases e with
  | control | append => rfl
  | refresh =>
    obtain ⟨failed, eq⟩ := a.refreshedSeeing_eq s v
    rw [write, next, eq]
    exact a.refreshed_events s v.counted v.now

/-- A write that may be made leaves the status or moves it on. -/
theorem write_status (proceeds : e.proceeds a = true) :
    (e.write s v a).status = a.status ∨ a.status.Leads (e.write s v a).status := by
  cases e with
  | append => exact .inl rfl
  | control c =>
    refine .inr ?_
    change a.status.Leads c.target
    cases c <;> cases status : a.status <;>
      first | constructor | simp [Errand.proceeds, Control.isAllowed, status] at proceeds
  | refresh =>
    obtain ⟨failed, eq⟩ := a.refreshedSeeing_eq s v
    have status : (write s v .refresh a).status =
        if a.status = .processing then a.standing s v.counted v.now else a.status := by
      rw [write, next, eq]
      exact a.refreshed_status s v.counted v.now
    rw [status]
    by_cases processing : a.status = .processing
    · rw [if_pos processing, processing]
      unfold Action.standing
      split
      · exact .inr .done
      · exact .inr .error
      · split
        · exact .inr .error
        · exact .inl rfl
    · exact .inl (if_neg processing)

theorem append_kept (level message : String) (documentId : Option String) :
    let b := write s v (.append level message documentId) a
    b.status = a.status ∧ b.stage = a.stage ∧ b.displayText = a.displayText ∧
      { b.report with events := a.report.events } = a.report := ⟨rfl, rfl, rfl, rfl⟩

end Errand

namespace Action

variable (s : ActionSettings)

/-- The row after writes that took effect one after the other, each worked out from the row as the
one before left it. -/
def rewritten (a : Action) (log : List Entry) : Action :=
  log.foldl (fun a e => e.errand.write s e.sight a) a

/-- The events that these writes add, each to the row as it finds it. -/
def told : Action → List Entry → List ActionEvent
  | _, [] => []
  | a, e :: rest => e.errand.said s e.sight a ++ told (e.errand.write s e.sight a) rest

/-- Each of these writes may be made to the row as it finds it. -/
def Lawful : Action → List Entry → Prop
  | _, [] => True
  | a, e :: rest => e.errand.proceeds a = true ∧ Lawful (e.errand.write s e.sight a) rest

variable {s} {a : Action} {log : List Entry}

theorem rewritten_snoc (a : Action) (log : List Entry) (e : Entry) :
    a.rewritten s (log ++ [e]) = e.errand.write s e.sight (a.rewritten s log) := by
  rw [rewritten, List.foldl_append]
  rfl

theorem rewritten_id (a : Action) (log : List Entry) : (a.rewritten s log).id = a.id := by
  induction log generalizing a with
  | nil => rfl
  | cons e rest ih => exact (ih _).trans (e.errand.write_id s e.sight a)

theorem rewritten_rowVersion (a : Action) (log : List Entry) :
    (a.rewritten s log).rowVersion = a.rowVersion + log.length := by
  induction log generalizing a with
  | nil => rfl
  | cons e rest ih =>
    have first := e.errand.write_rowVersion s e.sight a
    have later := ih (e.errand.write s e.sight a)
    rw [List.length_cons]
    change (rewritten s (e.errand.write s e.sight a) rest).rowVersion = _
    omega

/-- The events are the last of those that there were and all that were added. -/
theorem rewritten_events (a : Action) (log : List Entry) :
    (a.rewritten s log).report.events = a.eventsAfter s (a.told s log) := by
  induction log generalizing a with
  | nil => rfl
  | cons e rest ih =>
    have first := e.errand.write_events s e.sight a
    have later := ih (e.errand.write s e.sight a)
    change (rewritten s (e.errand.write s e.sight a) rest).report.events = _
    rw [later, told, eventsAfter, eventsAfter, first, eventsAfter]
    by_cases quiet : e.errand.said s e.sight a = []
    · simp only [quiet, if_true, List.nil_append]
    · by_cases silent : told s (e.errand.write s e.sight a) rest = []
      · simp only [silent, if_true, List.append_nil]
      · simp only [quiet, silent, if_false, List.append_eq_nil_iff, and_self, rtake_kept,
          List.append_assoc]

theorem Lawful.split {later : List Entry} (h : a.Lawful s (log ++ later)) :
    a.Lawful s log ∧ (a.rewritten s log).Lawful s later := by
  induction log generalizing a with
  | nil => exact ⟨trivial, h⟩
  | cons e rest ih =>
    obtain ⟨first, others⟩ := h
    obtain ⟨before, after⟩ := ih others
    exact ⟨⟨first, before⟩, after⟩

theorem Lawful.snoc {e : Entry} (h : a.Lawful s log)
    (proceeds : e.errand.proceeds (a.rewritten s log) = true) : a.Lawful s (log ++ [e]) := by
  induction log generalizing a with
  | nil => exact ⟨proceeds, trivial⟩
  | cons first rest ih => exact ⟨h.1, ih h.2 proceeds⟩

/-- A status in which an action has ended is never left. -/
theorem Lawful.ended (h : a.Lawful s log) (terminal : a.status.isTerminal = true) :
    (a.rewritten s log).status = a.status := by
  induction log generalizing a with
  | nil => rfl
  | cons e rest ih =>
    have same : (e.errand.write s e.sight a).status = a.status := by
      refine (e.errand.write_status s e.sight a h.1).resolve_right ?_
      intro leads
      rw [leads.left] at terminal
      cases terminal
    exact (ih h.2 (same ▸ terminal)).trans same

end Action

/-- Where a party is: it reads, it has read a row, it has worked out from that row and what it saw
what to write, with so many tries left; or it has written, was refused, or gave up. -/
inductive Attempt where
  | reading (tries : Nat)
  | holding (tries : Nat) (a : Action)
  | writing (tries : Nat) (a : Action) (v : Sight)
  | written (a : Action)
  | refused (why : ControlError)
  | kept (a : Option Action)

/-- The row that a party has in hand and may still write. -/
def Attempt.held? : Attempt → Option Action
  | .holding _ a => some a
  | .writing _ a _ => some a
  | _ => none

namespace Errand

variable (s : ActionSettings) (id : String)

def absent : Errand → Attempt
  | .control _ => .refused (.unknown id)
  | _ => .kept none

def declined (a : Action) : Errand → Attempt
  | .control c => .refused (.notAllowed id a.status c.target)
  | _ => .kept (some a)

def exhausted : Errand → Attempt
  | .control c => .refused (.kept id c.target)
  | _ => .kept none

/-- One step of a party. A refresh looks at the row once more before it gives up. -/
def step (v : Sight) (e : Errand) : Attempt → Actions → Attempt × Actions
  | .reading tries, as =>
    if tries = 0 ∧ e ≠ .refresh then (e.exhausted id, as)
    else
      match as.action? id with
      | none => (e.absent id, as)
      | some a => (.holding tries a, as)
  | .holding tries a, as =>
    if tries = 0 then (.kept (some a), as)
    else if e.proceeds a then (.writing tries a v, as)
    else (e.declined id a, as)
  | .writing tries a v, as =>
    match as.write? (e.next s v a) with
    | some as => (.written (e.write s v a), as)
    | none => (.reading (tries - 1), as)
  | ended, as => (ended, as)

def solo (v : Sight) (e : Errand) : Nat → Attempt → Actions → Attempt × Actions
  | 0, p, as => (p, as)
  | n + 1, p, as => solo v e n (e.step s id v p as).1 (e.step s id v p as).2

variable {s id} {v : Sight} {e : Errand} {as : Actions}

theorem solo_over {p : Attempt} (ended : e.step s id v p as = (p, as)) (n : Nat) :
    e.solo s id v n p as = (p, as) := by
  induction n with
  | zero => rfl
  | succ n ih =>
    rw [solo, ended]
    exact ih

/-- A try of a party that is alone: nothing is there, or there is nothing to write, or what it
writes takes effect, or it tries again. -/
theorem solo_holding (tries n : Nat) (a : Action) :
    e.solo s id v (n + 2) (.holding (tries + 1) a) as =
      if e.proceeds a then
        match as.write? (e.next s v a) with
        | some as => (.written (e.write s v a), as)
        | none => e.solo s id v n (.reading tries) as
      else (e.declined id a, as) := by
  have tried : ¬ tries + 1 = 0 := Nat.succ_ne_zero tries
  by_cases proceeds : e.proceeds a = true
  · simp only [solo, step, tried, proceeds, if_true, if_false]
    cases as.write? (e.next s v a) with
    | none => rfl
    | some written => exact solo_over rfl n
  · simp only [solo, step, tried, proceeds, if_false, Bool.false_eq_true]
    cases e with
    | control => exact solo_over rfl n
    | refresh | append => exact solo_over rfl n

/-- A party that is alone and wants to do something to an action does what is done in one go. -/
theorem solo_control (c : Control) (tries n : Nat) :
    solo s id v (.control c) (3 * tries + 1 + n) (.reading tries) as =
      ((match (as.tryControl s v.now id c tries).1 with
        | .ok a => .written a
        | .error why => .refused why), (as.tryControl s v.now id c tries).2) := by
  induction tries with
  | zero =>
    rw [Nat.add_comm, solo]
    exact solo_over rfl n
  | succ tries ih =>
    have steps : 3 * (tries + 1) + 1 + n = 3 * tries + 1 + n + 2 + 1 := by omega
    have tried : ¬ tries + 1 = 0 := Nat.succ_ne_zero tries
    rw [steps, solo, step, Actions.tryControl]
    simp only [tried, false_and, if_false]
    cases found : as.action? id with
    | none => exact solo_over rfl _
    | some a =>
      simp only [solo_holding]
      by_cases allowed : c.isAllowed a.status = true
      · simp only [proceeds, next, allowed, if_true]
        cases written : as.write? (a.controlled s v.now c) with
        | none => exact ih
        | some table => rfl
      · simp only [proceeds, allowed, if_false, Bool.false_eq_true]
        rfl

/-- A party that is alone and wants to add an event adds what is added in one go. -/
theorem solo_append (level message : String) (documentId : Option String) (tries n : Nat) :
    (solo s id v (.append level message documentId) (3 * tries + 1 + n) (.reading tries) as).2 =
      as.tryAppend s id ⟨v.now, level, message, documentId⟩ tries := by
  induction tries with
  | zero =>
    rw [Nat.add_comm, solo]
    exact congrArg Prod.snd (solo_over rfl n)
  | succ tries ih =>
    have steps : 3 * (tries + 1) + 1 + n = 3 * tries + 1 + n + 2 + 1 := by omega
    have tried : ¬ tries + 1 = 0 := Nat.succ_ne_zero tries
    rw [steps, solo, step, Actions.tryAppend]
    simp only [tried, false_and, if_false]
    cases found : as.action? id with
    | none => exact congrArg Prod.snd (solo_over rfl _)
    | some a =>
      simp only [solo_holding, proceeds, next, if_true]
      cases written : as.write? { a with
          report := a.report.push s.maxEvents ⟨v.now, level, message, documentId⟩
          updatedAt := v.now } with
      | none => exact ih
      | some table => rfl

/-- A party that is alone and counts the jobs anew, from a row as old as it may be, does what is
done in one go. -/
theorem solo_refresh (s : ActionSettings) (q : Queue) (now : Int) {b : Action}
    (there : as.action? id = some b) (a : Action) (own : a.id = id) (tries n : Nat) :
    ∃ p, solo s id ⟨q, q, now⟩ .refresh (3 * tries + 1 + n) (.holding tries a) as =
        (p, (Actions.refreshFrom s q now tries as a).2) ∧
      (p = .written (Actions.refreshFrom s q now tries as a).1 ∨
        p = .kept (some (Actions.refreshFrom s q now tries as a).1)) := by
  induction tries generalizing a with
  | zero =>
    refine ⟨_, ?_, .inr rfl⟩
    rw [Nat.add_comm, solo]
    exact solo_over rfl n
  | succ tries ih =>
    have steps : 3 * (tries + 1) + 1 + n = 3 * tries + 1 + n + 1 + 2 := by omega
    have here : as.action? a.id = some b := own ▸ there
    rw [steps, solo_holding, Actions.refreshFrom]
    by_cases terminal : a.status.isTerminal = true
    · simp only [proceeds, terminal, Bool.not_true, if_true, if_false, Bool.false_eq_true]
      exact ⟨_, rfl, .inr rfl⟩
    · simp only [proceeds, terminal, Bool.not_false, if_true, if_false, Bool.false_eq_true, next,
        Action.refreshedSeeing_once, here, Option.getD_some]
      cases written : as.write? (a.refreshed s q now) with
      | none =>
        have known : b.id = id := (Actions.mem_of_action? there).2
        have again := ih b known
        have reads : step s id ⟨q, q, now⟩ .refresh (.reading tries) as =
            (.holding tries b, as) := by
          simp [step, there]
        simp only [solo, reads]
        exact again
      | some table =>
        refine ⟨_, rfl, .inl ?_⟩
        simp only [write, next, Action.refreshedSeeing_once]

end Errand

namespace Errand

/-- What a step of a party can be: it is over, or it looks without writing anything, or what it
writes takes effect. -/
inductive Moves (s : ActionSettings) (id : String) (e : Errand) (as : Actions) :
    Attempt → Attempt → Actions → Prop
  | stays (p : Attempt) : Moves s id e as p p as
  | looks (p p' : Attempt) : (∀ a, p ≠ .written a) → (∀ a, p' ≠ .written a) →
      (∀ a, p'.held? = some a → p.held? = some a ∨ as.action? id = some a) →
      (∀ tries a v, p' = .writing tries a v → e.proceeds a = true) → Moves s id e as p p' as
  | writes (tries : Nat) (a : Action) (v : Sight) (as' : Actions) :
      as.write? (e.next s v a) = some as' →
      Moves s id e as (.writing tries a v) (.written (e.write s v a)) as'

theorem step_moves (s : ActionSettings) (id : String) (v : Sight) (e : Errand) (p : Attempt)
    (as : Actions) : e.Moves s id as p (e.step s id v p as).1 (e.step s id v p as).2 := by
  -- whoever was refused or gave up has no row in hand and has not written
  have given_up : ∀ p p' : Attempt, (∀ a, p ≠ .written a) → (∀ a, p' ≠ .written a) →
      p'.held? = none → e.Moves s id as p p' as := by
    intro p p' before after nothing
    refine .looks p p' before after (fun a held => ?_) (fun tries a v writing => ?_)
    · rw [nothing] at held
      cases held
    · rw [writing] at nothing
      cases nothing
  cases p with
  | reading tries =>
    simp only [step]
    split
    · cases e <;> exact given_up _ _ (by simp) (by simp [exhausted]) rfl
    · split
      · cases e <;> exact given_up _ _ (by simp) (by simp [absent]) rfl
      · rename_i a found
        refine .looks _ _ (by simp) (by simp) (fun b held => .inr ?_) (by simp)
        cases held
        exact found
  | holding tries a =>
    simp only [step]
    split
    · exact given_up _ _ (by simp) (by simp) rfl
    · split
      · rename_i proceeds
        refine .looks _ _ (by simp) (by simp) (fun b held => .inl held) ?_
        rintro _ _ _ ⟨⟩
        exact proceeds
      · cases e <;> exact given_up _ _ (by simp) (by simp [declined]) rfl
  | writing tries a v' =>
    simp only [step]
    split
    · exact .writes tries a v' _ ‹_›
    · exact given_up _ _ (by simp) (by simp) rfl
  | written | refused | kept => exact .stays _

end Errand

structure Party where
  errand : Errand
  attempt : Attempt

/-- The actions, those who are at work on one of them, and its writes that have taken effect. -/
structure Scene where
  table : Actions
  parties : List Party
  log : List Entry

/-- What happens next: a party comes, or one takes a step with what it sees. -/
inductive Cue where
  | join (e : Errand)
  | move (place : Nat) (v : Sight)

namespace Scene

def logged? (place : Nat) (e : Errand) : Attempt → Attempt → Option Entry
  | .writing _ _ v, .written _ => some ⟨place, e, v⟩
  | _, _ => none

variable (s : ActionSettings) (id : String)

def turn (c : Scene) : Cue → Scene
  | .join e => { c with parties := c.parties ++ [⟨e, .reading Actions.writeTries⟩] }
  | .move place v =>
    match c.parties[place]? with
    | none => c
    | some p =>
      let (attempt, table) := p.errand.step s id v p.attempt c.table
      { table, parties := c.parties.set place { p with attempt }
        log := c.log ++ (logged? place p.errand p.attempt attempt).toList }

def play (c : Scene) (cues : List Cue) : Scene := cues.foldl (turn s id) c

/-- One party takes so many steps, always seeing the same, and nobody else takes any. -/
def alone (place : Nat) (v : Sight) (n : Nat) (c : Scene) : Scene :=
  c.play s id (List.replicate n (.move place v))

theorem alone_eq {place : Nat} (v : Sight) (n : Nat) {c : Scene} {e : Errand} {p : Attempt}
    (found : c.parties[place]? = some ⟨e, p⟩) :
    (c.alone s id place v n).table = (e.solo s id v n p c.table).2 ∧
      (c.alone s id place v n).parties[place]? = some ⟨e, (e.solo s id v n p c.table).1⟩ := by
  induction n generalizing c p with
  | zero => exact ⟨rfl, found⟩
  | succ n ih =>
    have inside := (List.getElem?_eq_some_iff.mp found).1
    have stepped : c.turn s id (.move place v) =
        ⟨(e.step s id v p c.table).2, c.parties.set place ⟨e, (e.step s id v p c.table).1⟩,
          c.log ++ (logged? place e p (e.step s id v p c.table).1).toList⟩ := by
      simp only [turn, found]
    have here : (c.turn s id (.move place v)).parties[place]? =
        some ⟨e, (e.step s id v p c.table).1⟩ := by
      rw [stepped]
      exact List.getElem?_set_self inside
    have rest := ih here
    rw [stepped] at rest
    rw [alone, List.replicate_succ, play, List.foldl_cons, stepped]
    exact rest

end Scene

/-- A party that has written has one entry, which made the row that it tells; no other has any. -/
def Party.Recorded (s : ActionSettings) (row : Action) (log : List Entry) (place : Nat)
    (p : Party) : Prop :=
  match p.attempt with
  | .written a => ∃ before e later, log = before ++ e :: later ∧ e.place = place ∧
      e.errand = p.errand ∧ a = e.errand.write s e.sight (row.rewritten s before) ∧
      ∀ x ∈ before ++ later, x.place ≠ place
  | _ => ∀ x ∈ log, x.place ≠ place

theorem Party.Recorded.behind {s : ActionSettings} {row : Action} {log : List Entry} {place : Nat}
    {p : Party} (h : p.Recorded s row log place) {x : Entry} (apart : x.place ≠ place) :
    p.Recorded s row (log ++ [x]) place := by
  have others : ∀ ys : List Entry, (∀ y ∈ ys, y.place ≠ place) →
      ∀ y ∈ ys ++ [x], y.place ≠ place := by
    intro ys none_of y member
    rcases List.mem_append.mp member with old | new
    · exact none_of y old
    · rw [List.mem_singleton.mp new]
      exact apart
  rw [Recorded] at h ⊢
  split at h
  · obtain ⟨before, e, later, rfl, here, errand, tells, rest⟩ := h
    refine ⟨before, e, later ++ [x], by simp, here, errand, tells, ?_⟩
    rw [← List.append_assoc]
    exact others _ rest
  · exact others _ h

namespace Scene

/-- The row of an action is what its recorded writes have made of it, and whatever a party has in
hand was the row at some time. -/
structure Linear (s : ActionSettings) (table : Actions) (row : Action) (c : Scene) : Prop where
  table : c.table = table.put (row.rewritten s c.log)
  lawful : row.Lawful s c.log
  known : ∀ p ∈ c.parties, ∀ a, p.attempt.held? = some a →
    ∃ before, before <+: c.log ∧ a = row.rewritten s before
  proceeds : ∀ p ∈ c.parties, ∀ tries a v, p.attempt = .writing tries a v →
    p.errand.proceeds a = true
  places : ∀ e ∈ c.log, e.place < c.parties.length
  recorded : ∀ (place : Nat) (p : Party), c.parties[place]? = some p →
    p.Recorded s row c.log place

variable {s : ActionSettings} {table : Actions} {row : Action} {c : Scene}

namespace Linear

theorem initial (once : table.ids.Nodup) (there : row ∈ table) :
    Linear s table row ⟨table, [], []⟩ where
  table := (Actions.put_self once there).symm
  lawful := trivial
  known := fun _ member => absurd member List.not_mem_nil
  proceeds := fun _ member => absurd member List.not_mem_nil
  places := fun _ member => absurd member List.not_mem_nil
  recorded := fun _ _ found => by simp at found

variable (h : c.Linear s table row)
include h

theorem present (there : row ∈ table) : row.rewritten s c.log ∈ c.table := by
  rw [h.table]
  exact Actions.mem_put there (row.rewritten_id c.log).symm

theorem current (once : table.ids.Nodup) (there : row ∈ table) {a : Action} (member : a ∈ c.table)
    (own : a.id = row.id) : a = row.rewritten s c.log := by
  have once' : c.table.ids.Nodup := by
    rw [h.table, Actions.ids_put]
    exact once
  exact Actions.eq_of_id once' member (h.present there) (own.trans (row.rewritten_id c.log).symm)

theorem read (once : table.ids.Nodup) (there : row ∈ table) :
    c.table.action? row.id = some (row.rewritten s c.log) := by
  cases looked : c.table.action? row.id with
  | none =>
    have absent := List.find?_eq_none.mp looked _ (h.present there)
    exact absurd (row.rewritten_id c.log) (by simpa using absent)
  | some a =>
    obtain ⟨member, own⟩ := Actions.mem_of_action? looked
    rw [h.current once there member own]

/-- A row that was read and is written under its version is the row still. -/
theorem unchanged (once : table.ids.Nodup) (there : row ∈ table) {before : List Entry}
    (earlier : before <+: c.log) {next : Action} {table' : Actions}
    (id : next.id = row.id) (version : next.rowVersion = (row.rewritten s before).rowVersion)
    (written : c.table.write? next = some table') : before = c.log := by
  obtain ⟨⟨b, member, same, current⟩, _⟩ := Actions.of_write? written
  rw [h.current once there member (same.trans id), version, Action.rewritten_rowVersion,
    Action.rewritten_rowVersion] at current
  exact earlier.eq_of_length (by omega)

theorem joined (e : Errand) : (c.turn s row.id (.join e)).Linear s table row where
  table := h.table
  lawful := h.lawful
  known := by
    intro p member a held
    rcases List.mem_append.mp member with old | new
    · exact h.known p old a held
    · obtain rfl := List.mem_singleton.mp new
      cases held
  proceeds := by
    intro p member tries a v writing
    rcases List.mem_append.mp member with old | new
    · exact h.proceeds p old tries a v writing
    · obtain rfl := List.mem_singleton.mp new
      cases writing
  places := by
    intro x member
    have before := h.places x member
    have longer : (c.turn s row.id (.join e)).parties.length = c.parties.length + 1 :=
      List.length_append
    omega
  recorded := by
    intro place p found
    by_cases old : place < c.parties.length
    · have same : (c.turn s row.id (.join e)).parties[place]? = c.parties[place]? :=
        List.getElem?_append_left old
      exact h.recorded place p (same ▸ found)
    · have member : p ∈ [(⟨e, .reading Actions.writeTries⟩ : Party)] := by
        have rest := (List.getElem?_append_right (Nat.le_of_not_lt old)).symm.trans found
        exact List.mem_of_getElem? rest
      obtain rfl := List.mem_singleton.mp member
      intro x recorded same
      have before := h.places x recorded
      omega

variable {place : Nat} {p : Party}

theorem looked (found : c.parties[place]? = some p) (once : table.ids.Nodup) (there : row ∈ table)
    {p' : Attempt}
    (held : ∀ a, p'.held? = some a → p.attempt.held? = some a ∨ c.table.action? row.id = some a)
    (proceeds : ∀ tries a v, p' = .writing tries a v → p.errand.proceeds a = true)
    (recorded : Party.Recorded s row c.log place ⟨p.errand, p'⟩) :
    Linear s table row { c with parties := c.parties.set place ⟨p.errand, p'⟩ } where
  table := h.table
  lawful := h.lawful
  known := by
    intro x member a held'
    rcases List.mem_or_eq_of_mem_set member with old | rfl
    · exact h.known x old a held'
    · rcases held a held' with before | now
      · exact h.known p (List.mem_of_getElem? found) a before
      · obtain ⟨member, own⟩ := Actions.mem_of_action? now
        exact ⟨c.log, List.prefix_rfl, h.current once there member own⟩
  proceeds := by
    intro x member tries a v writing
    rcases List.mem_or_eq_of_mem_set member with old | rfl
    · exact h.proceeds x old tries a v writing
    · exact proceeds tries a v writing
  places := by
    intro x member
    rw [List.length_set]
    exact h.places x member
  recorded := by
    intro other x at_
    rw [List.getElem?_set] at at_
    split at at_
    · rename_i same
      subst same
      split at at_
      · cases at_
        exact recorded
      · cases at_
    · exact h.recorded other x at_

/-- What a party writes takes effect: what it has in hand is the row still. -/
theorem wrote (found : c.parties[place]? = some p) (once : table.ids.Nodup) (there : row ∈ table)
    {tries : Nat} {a : Action} {v : Sight} {table' : Actions}
    (attempt : p.attempt = .writing tries a v)
    (written : c.table.write? (p.errand.next s v a) = some table') :
    a = row.rewritten s c.log ∧
    Linear s table row ⟨table', c.parties.set place ⟨p.errand, .written (p.errand.write s v a)⟩,
      c.log ++ [⟨place, p.errand, v⟩]⟩ := by
  have member := List.mem_of_getElem? found
  obtain ⟨before, earlier, rfl⟩ := h.known p member a (by rw [attempt]; rfl)
  have id : (p.errand.next s v (row.rewritten s before)).id = row.id :=
    (p.errand.next_sameStart s v _).id.trans (row.rewritten_id before)
  obtain rfl := h.unchanged once there earlier id (p.errand.next_rowVersion s v _) written
  have after : row.rewritten s (c.log ++ [⟨place, p.errand, v⟩]) =
      p.errand.write s v (row.rewritten s c.log) := row.rewritten_snoc c.log _
  have mine : ∀ x ∈ c.log, x.place ≠ place := by
    have recorded := h.recorded place p found
    rw [Party.Recorded, attempt] at recorded
    exact recorded
  refine ⟨rfl, ?_, ?_, ?_, ?_, ?_, ?_⟩
  · rw [after, (Actions.of_write? written).2, h.table]
    exact Actions.put_put _ (id.trans (row.rewritten_id c.log).symm)
  · exact h.lawful.snoc (h.proceeds p member tries _ v attempt)
  · intro x member a held
    rcases List.mem_or_eq_of_mem_set member with old | rfl
    · obtain ⟨before, earlier, eq⟩ := h.known x old a held
      exact ⟨before, earlier.trans (List.prefix_append _ _), eq⟩
    · cases held
  · intro x member tries a v writing
    rcases List.mem_or_eq_of_mem_set member with old | rfl
    · exact h.proceeds x old tries a v writing
    · cases writing
  · intro x member
    have here : place < c.parties.length := (List.getElem?_eq_some_iff.mp found).1
    rw [List.length_set]
    rcases List.mem_append.mp member with old | new
    · exact h.places x old
    · rw [List.mem_singleton.mp new]
      exact here
  · intro other x at_
    rw [List.getElem?_set] at at_
    split at at_
    · rename_i same
      subst same
      split at at_
      · cases at_
        exact ⟨c.log, ⟨place, p.errand, v⟩, [], rfl, rfl, rfl, rfl, by simpa using mine⟩
      · cases at_
    · rename_i apart
      exact (h.recorded other x at_).behind apart

theorem moved (once : table.ids.Nodup) (there : row ∈ table) {errand : Errand}
    {attempt attempt' : Attempt} {table' : Actions}
    (found : c.parties[place]? = some ⟨errand, attempt⟩)
    (moves : errand.Moves s row.id c.table attempt attempt' table') :
    let log := c.log ++ (logged? place errand attempt attempt').toList
    Linear s table row ⟨table', c.parties.set place ⟨errand, attempt'⟩, log⟩ ∧
      (table' = c.table ∧ log = c.log ∨ ∃ tries v,
        attempt = .writing tries (row.rewritten s c.log) v ∧
        log = c.log ++ [⟨place, errand, v⟩]) := by
  have before := h.recorded place _ found
  intro log
  cases moves with
  | stays =>
    have same : log = c.log := by
      cases attempt <;> exact List.append_nil c.log
    rw [same]
    refine ⟨h.looked found once there (fun a held => .inl held) ?_ before, .inl ⟨rfl, rfl⟩⟩
    exact h.proceeds _ (List.mem_of_getElem? found)
  | looks _ _ unwritten still held proceeds =>
    have same : log = c.log := by
      cases attempt' with
      | written a => exact absurd rfl (still a)
      | _ => cases attempt <;> exact List.append_nil c.log
    have unrecorded : Party.Recorded s row c.log place ⟨errand, attempt'⟩ := by
      have none_yet : ∀ x ∈ c.log, x.place ≠ place := by
        cases attempt with
        | written a => exact absurd rfl (unwritten a)
        | _ => exact before
      cases attempt' with
      | written a => exact absurd rfl (still a)
      | _ => exact none_yet
    rw [same]
    exact ⟨h.looked found once there held proceeds unrecorded, .inl ⟨rfl, rfl⟩⟩
  | writes tries a v as' written =>
    obtain ⟨current, linear⟩ := h.wrote found once there rfl written
    exact ⟨linear, .inr ⟨tries, v, by rw [current], rfl⟩⟩

/-- Whatever happens next, the row is what the recorded writes make of it. Nothing is written, or
the party whose turn it is writes what it worked out from the row as it is. -/
theorem turn (once : table.ids.Nodup) (there : row ∈ table) (t : Cue) :
    let next := c.turn s row.id t
    next.Linear s table row ∧ (next.table = c.table ∧ next.log = c.log ∨
      ∃ e v tries, t = .move e.place v ∧ next.log = c.log ++ [e] ∧ c.parties[e.place]? =
        some ⟨e.errand, .writing tries (row.rewritten s c.log) e.sight⟩) := by
  intro next
  cases t with
  | join e => exact ⟨h.joined e, .inl ⟨rfl, rfl⟩⟩
  | move place v =>
    cases found : c.parties[place]? with
    | none =>
      have same : next = c := by simp only [next, Scene.turn, found]
      rw [same]
      exact ⟨h, .inl ⟨rfl, rfl⟩⟩
    | some p =>
      obtain ⟨linear, written⟩ := h.moved once there found
        (p.errand.step_moves s row.id v p.attempt c.table)
      have same : next = ⟨(p.errand.step s row.id v p.attempt c.table).2,
          c.parties.set place ⟨p.errand, (p.errand.step s row.id v p.attempt c.table).1⟩,
          c.log ++ (logged? place p.errand p.attempt
            (p.errand.step s row.id v p.attempt c.table).1).toList⟩ := by
        simp only [next, Scene.turn, found]
      rw [same]
      refine ⟨linear, written.imp_right ?_⟩
      rintro ⟨tries, v', attempt, log⟩
      exact ⟨⟨place, p.errand, v'⟩, v, tries, rfl, log, by rw [found, ← attempt]⟩

theorem play (once : table.ids.Nodup) (there : row ∈ table) (cues : List Cue) :
    (c.play s row.id cues).Linear s table row := by
  induction cues generalizing c with
  | nil => exact h
  | cons t rest ih => exact ih (h.turn once there t).1

end Linear

/-- A party that is alone from now on does what is done in one go, when it is at its start, or when
it counts the jobs anew and has read a row before, however old that is. -/
structure Seamless (s : ActionSettings) (id : String) (c : Scene) : Prop where
  control : ∀ place v n ctl, 3 * Actions.writeTries + 1 ≤ n →
    c.parties[place]? = some ⟨.control ctl, .reading Actions.writeTries⟩ →
    let after := c.alone s id place v n
    let gone := c.table.control s v.now id ctl
    after.table = gone.2 ∧ after.parties[place]? = some ⟨.control ctl,
      match gone.1 with
      | .ok a => .written a
      | .error why => .refused why⟩
  append : ∀ place v n level message documentId, 3 * Actions.writeTries + 1 ≤ n →
    c.parties[place]? = some ⟨.append level message documentId, .reading Actions.writeTries⟩ →
    (c.alone s id place v n).table = c.table.append s id ⟨v.now, level, message, documentId⟩
  refreshFrom : ∀ place q now n tries a, 3 * tries + 1 ≤ n → a.id = id →
    c.parties[place]? = some ⟨.refresh, .holding tries a⟩ →
    let after := c.alone s id place ⟨q, q, now⟩ n
    let gone := Actions.refreshFrom s q now tries c.table a
    after.table = gone.2 ∧ ∃ p, after.parties[place]? = some ⟨.refresh, p⟩ ∧
      (p = .written gone.1 ∨ p = .kept (some gone.1))
  refreshLatest : ∀ place q now n workspace base a, 3 * Actions.writeTries + 2 ≤ n →
    c.table.latest? workspace base = some a → a.id = id →
    c.parties[place]? = some ⟨.refresh, .reading Actions.writeTries⟩ →
    let after := c.alone s id place ⟨q, q, now⟩ n
    let gone := c.table.refreshLatest s q now workspace base
    after.table = gone.2 ∧ ∃ p b, after.parties[place]? = some ⟨.refresh, p⟩ ∧
      gone.1 = some b ∧ (p = .written b ∨ p = .kept (some b))

theorem Linear.seamless (h : c.Linear s table row) (once : table.ids.Nodup) (there : row ∈ table) :
    c.Seamless s row.id where
  control := by
    intro place v n ctl enough found
    obtain ⟨more, rfl⟩ := Nat.exists_eq_add_of_le enough
    obtain ⟨after, here⟩ := alone_eq s row.id v _ found
    rw [Errand.solo_control] at after here
    exact ⟨after, here⟩
  append := by
    intro place v n level message documentId enough found
    obtain ⟨more, rfl⟩ := Nat.exists_eq_add_of_le enough
    rw [(alone_eq s row.id v _ found).1, Errand.solo_append, Actions.append]
  refreshFrom := by
    intro place q now n tries a enough own found
    obtain ⟨more, rfl⟩ := Nat.exists_eq_add_of_le enough
    obtain ⟨after, here⟩ := alone_eq s row.id ⟨q, q, now⟩ _ found
    obtain ⟨p, ends, tells⟩ := Errand.solo_refresh s q now (h.read once there) a own tries more
    rw [ends] at after here
    exact ⟨after, p, here, tells⟩
  refreshLatest := by
    intro place q now n workspace base a enough latest own found
    obtain ⟨more, rfl⟩ := Nat.exists_eq_add_of_le enough
    obtain rfl := h.current once there (Actions.latest?_spec latest).1 own
    -- the first step reads the row that is the latest one
    have reads : Errand.step s row.id ⟨q, q, now⟩ .refresh (.reading Actions.writeTries) c.table =
        (.holding Actions.writeTries (row.rewritten s c.log), c.table) := by
      simp [Errand.step, h.read once there]
    obtain ⟨p, ends, tells⟩ :=
      Errand.solo_refresh s q now (h.read once there) _ own Actions.writeTries more
    have steps : 3 * Actions.writeTries + 2 + more = 3 * Actions.writeTries + 1 + more + 1 := by
      omega
    obtain ⟨after, here⟩ :=
      alone_eq s row.id ⟨q, q, now⟩ (3 * Actions.writeTries + 1 + more + 1) found
    rw [Errand.solo, reads, ends] at after here
    simp only [steps, Actions.refreshLatest, latest]
    exact ⟨after, p, _, here, rfl, tells⟩

end Scene

/-- Let any number of parties, who come when they like, pause, resume, cancel or refresh an action
or add events to it, with their steps in any order and each seeing what it may. The row is then what
the writes that took effect make of it one after the other, each from the row as the one before left
it, and its version counts them. None of them moves the status but as an action moves, none leaves a
status in which the action has ended, and one that adds an event changes nothing else of what is
reported. The events are the last of all that were added. Whatever happens next, the table stays as
it is, or the party whose turn it is has the row as it is in hand and writes once. A party that was
refused or gave up, or is not there yet, has written nothing. One that is left alone from some time
on does what is done in one go. -/
theorem action_history_linear (s : ActionSettings) {table : Actions} {row : Action}
    (once : table.ids.Nodup) (there : row ∈ table) (cues : List Cue) :
    let scene := (⟨table, [], []⟩ : Scene).play s row.id cues
    let last := row.rewritten s scene.log
    scene.table = table.put last ∧
    last.rowVersion = row.rowVersion + scene.log.length ∧
    last.report.events = row.eventsAfter s (row.told s scene.log) ∧
    (∀ before e later, scene.log = before ++ e :: later →
      let a := row.rewritten s before
      let b := e.errand.write s e.sight a
      e.errand.proceeds a = true ∧ b.rowVersion = a.rowVersion + 1 ∧
      (b.status = a.status ∨ a.status.Leads b.status) ∧
      (a.status.isTerminal = true → b.status = a.status ∧ last.status = a.status) ∧
      (∀ level message documentId, e.errand = .append level message documentId →
        b.status = a.status ∧ b.stage = a.stage ∧
        { b.report with events := a.report.events } = a.report)) ∧
    (∀ (place : Nat) (p : Party), scene.parties[place]? = some p →
      p.Recorded s row scene.log place) ∧
    (∀ t, let next := scene.turn s row.id t
      next.table = scene.table ∧ next.log = scene.log ∨
      ∃ e v tries, t = .move e.place v ∧
        scene.parties[e.place]? = some ⟨e.errand, .writing tries last e.sight⟩ ∧
        next.table = table.put (e.errand.write s e.sight last) ∧
        next.log = scene.log ++ [e]) ∧
    scene.Seamless s row.id := by
  intro scene last
  have linear : scene.Linear s table row := (Scene.Linear.initial once there).play once there cues
  refine ⟨linear.table, row.rewritten_rowVersion scene.log, row.rewritten_events scene.log, ?_,
    linear.recorded, ?_, linear.seamless once there⟩
  · intro before e later log a b
    have lawful := linear.lawful
    rw [log] at lawful
    have rest : a.Lawful s (e :: later) := lawful.split.2
    have onward : last = a.rewritten s (e :: later) := by
      simp only [last, log, Action.rewritten, List.foldl_append, a]
    refine ⟨rest.1, e.errand.write_rowVersion s e.sight a, e.errand.write_status s e.sight a rest.1,
      ?_, ?_⟩
    · intro terminal
      have first : a.Lawful s [e] := ⟨rest.1, trivial⟩
      exact ⟨first.ended terminal, onward ▸ rest.ended terminal⟩
    · intro level message documentId appends
      obtain ⟨status, stage, _, report⟩ := Errand.append_kept s e.sight a level message documentId
      simp only [b, appends]
      exact ⟨status, stage, report⟩
  · intro t next
    obtain ⟨after, nothing | ⟨e, v, tries, its_turn, log, in_hand⟩⟩ := linear.turn once there t
    · exact .inl nothing
    · refine .inr ⟨e, v, tries, its_turn, in_hand, ?_, log⟩
      have written := after.table
      rw [log, Action.rewritten_snoc] at written
      exact written

namespace Sample

/-- A worker has counted the jobs when an operator cancels the action, writes in vain and finds it
canceled; then an event is added. -/
def raced : List Cue :=
  let jobs := [jobOf "j" .completed, jobOf "k" .pending]
  let seen : Sight := ⟨jobs, jobs, 1001⟩
  [.join .refresh, .move 0 seen, .move 0 seen, .join (.control .cancel), .move 1 seen, .move 1 seen,
    .move 1 seen, .move 0 seen, .move 0 seen, .move 0 seen, .join (.append "error" "late" none),
    .move 2 seen, .move 2 seen, .move 2 seen]

def scene : Scene := (⟨[action], [], []⟩ : Scene).play {} "a" raced

end Sample

theorem action_history_linear_sample :
    Actions.ids [Sample.action] = ["a"] ∧ Sample.scene.log.map (·.place) = [1, 2] ∧
    (Sample.action.rewritten {} Sample.scene.log).rowVersion = 2 ∧
    (Sample.action.rewritten {} Sample.scene.log).status = .canceled ∧
    Sample.scene.table =
      Actions.put [Sample.action] (Sample.action.rewritten {} Sample.scene.log) := by
  have once : (Actions.ids [Sample.action]).Nodup := by decide
  have there : Sample.action ∈ [Sample.action] := List.mem_singleton_self _
  obtain ⟨table, version, _⟩ := action_history_linear {} once there Sample.raced
  have places : Sample.scene.log.map (·.place) = [1, 2] := by decide +kernel
  have writes : Sample.scene.log.length = 2 := by simpa using congrArg List.length places
  have status : (Sample.action.rewritten {} Sample.scene.log).status = .canceled := by
    decide +kernel
  refine ⟨rfl, places, ?_, status, table⟩
  exact version.trans (congrArg (Sample.action.rowVersion + ·) writes)

end IndexingPipeline
