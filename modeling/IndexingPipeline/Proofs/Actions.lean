import Mathlib.Data.List.Nodup
import IndexingPipeline.Proofs.Tables

/-!
# Rows of the actions

A row of an action is written as a whole, worked out from the row as it was read, and only while
that row is still there. When nothing comes in between the first try succeeds. Whatever is done to
an action leaves alone what was fixed when it was started, so that it follows the same jobs, and
the action of a base that was started last stays the last until another is started.
-/

namespace IndexingPipeline

/-- Two rows of one action: what was fixed when it was started is the same. -/
structure Action.SameStart (a b : Action) : Prop where
  id : b.id = a.id
  workspace : b.workspaceId = a.workspaceId
  base : b.baseId = a.baseId
  created : b.createdAt = a.createdAt
  settings : b.report.settings = a.report.settings

namespace Action

namespace SameStart

theorem refl (a : Action) : a.SameStart a := ⟨rfl, rfl, rfl, rfl, rfl⟩

theorem trans {a b c : Action} (ab : a.SameStart b) (bc : b.SameStart c) : a.SameStart c where
  id := bc.id.trans ab.id
  workspace := bc.workspace.trans ab.workspace
  base := bc.base.trans ab.base
  created := bc.created.trans ab.created
  settings := bc.settings.trans ab.settings

theorem scope {a b : Action} (same : a.SameStart b) : b.scope = a.scope := by
  rw [Action.scope, Action.scope, same.workspace, same.base, same.created]

end SameStart

variable (s : ActionSettings) (q : Queue) (now : Int) (a : Action)

/-- A refresh writes the counts and, beside them, no more than the status, the stage, the text, the
moment and the events. -/
theorem refreshed_eq : ∃ status stage displayText events,
    a.refreshed s q now = { a with
      status, stage, displayText, updatedAt := now
      report := { (recounted s q a).report with events } } := by
  unfold refreshed
  simp only
  split
  · unfold settled
    simp only
    split
    · exact ⟨_, _, _, _, rfl⟩
    · exact ⟨_, _, _, _, rfl⟩
    · split <;> exact ⟨_, _, _, _, rfl⟩
  · exact ⟨_, _, _, _, rfl⟩

def standing : ActionStatus :=
  match (Progress.ofCounts (q.counts a.scope)).ending with
  | some .done => .done
  | some .error => .error
  | none => if a.isOverdue s now then .error else .processing

theorem refreshed_status : (a.refreshed s q now).status =
    if a.status = .processing then a.standing s q now else a.status := by
  unfold refreshed standing
  by_cases processing : a.status = .processing
  · simp only [processing, if_true]
    have overdue : (recounted s q a).isOverdue s now = a.isOverdue s now := rfl
    unfold settled
    cases (Progress.ofCounts (q.counts a.scope)).ending with
    | some ending => cases ending <;> rfl
    | none =>
      simp only [overdue]
      split
      · rfl
      · exact processing
  · simp only [processing, if_false]
    rfl

theorem refreshed_sameStart : a.SameStart (a.refreshed s q now) := by
  obtain ⟨status, stage, displayText, events, eq⟩ := a.refreshed_eq s q now
  rw [eq]
  exact ⟨rfl, rfl, rfl, rfl, rfl⟩

/-- The row that a refresh writes is another of the same action. -/
theorem refreshed_written (version : Nat) :
    a.SameStart { a.refreshed s q now with rowVersion := version } :=
  have same := a.refreshed_sameStart s q now
  ⟨same.id, same.workspace, same.base, same.created, same.settings⟩

theorem refreshed_rowVersion : (a.refreshed s q now).rowVersion = a.rowVersion := by
  obtain ⟨status, stage, displayText, events, eq⟩ := a.refreshed_eq s q now
  rw [eq]

end Action

namespace Actions

variable {as as' : Actions} {a next row : Action}

def ids (as : Actions) : List String := as.map (·.id)

def put (as : Actions) (row : Action) : Actions :=
  as.map fun a => if a.id = row.id then row else a

theorem ids_put (as : Actions) (row : Action) : (as.put row).ids = as.ids := by
  unfold ids put
  rw [List.map_map]
  apply List.map_congr_left
  intro a _
  by_cases here : a.id = row.id <;> simp [here]

theorem mem_put_of_ne (there : a ∈ as) (other : a.id ≠ row.id) : a ∈ as.put row :=
  List.mem_map.mpr ⟨a, there, if_neg other⟩

theorem mem_of_action? {id : String} (found : as.action? id = some a) : a ∈ as ∧ a.id = id :=
  ⟨List.mem_of_find?_eq_some found, by simpa using List.find?_some found⟩

/-- With one row for each identifier, a row of that identifier is the row. -/
theorem eq_of_id {b : Action} (once : as.ids.Nodup) (first : a ∈ as) (second : b ∈ as)
    (same : a.id = b.id) : a = b := List.inj_on_of_nodup_map once first second same

theorem mem_put (there : a ∈ as) (same : a.id = row.id) : row ∈ as.put row :=
  List.mem_map.mpr ⟨a, there, if_pos same⟩

theorem put_self (once : as.ids.Nodup) (there : row ∈ as) : as.put row = as := by
  have same : ∀ a ∈ as, (if a.id = row.id then row else a) = a := by
    intro a member
    by_cases here : a.id = row.id
    · rw [if_pos here, eq_of_id once member there here]
    · rw [if_neg here]
  exact (List.map_congr_left same).trans (List.map_id as)

theorem put_put (as : Actions) (same : next.id = row.id) :
    (as.put row).put next = as.put next := by
  rw [put, put, put, List.map_map]
  refine List.map_congr_left ?_
  intro a _
  by_cases here : a.id = next.id
  · simp [here, same]
  · have other : a.id ≠ row.id := same ▸ here
    simp [here, other]

/-- A row is only written when there is one of its identifier and version. -/
theorem of_write? (written : as.write? next = some as') :
    (∃ a ∈ as, a.id = next.id ∧ a.rowVersion = next.rowVersion) ∧
      as' = as.put { next with rowVersion := next.rowVersion + 1 } := by
  rw [write?] at written
  split at written
  · rename_i still
    obtain ⟨a, member, same⟩ := List.any_eq_true.mp still
    simp only [Bool.and_eq_true, decide_eq_true_eq] at same
    exact ⟨⟨a, member, same⟩, (Option.some.inj written).symm⟩
  · cases written

/-- A row that was worked out from one that is still there is written. -/
theorem write?_of_mem (there : a ∈ as) (id : next.id = a.id)
    (version : next.rowVersion = a.rowVersion) :
    as.write? next = some (as.put { next with rowVersion := next.rowVersion + 1 }) := by
  have still : (as.any fun a => a.id = next.id && a.rowVersion = next.rowVersion) = true :=
    List.any_eq_true.mpr ⟨a, there, by simp [id, version]⟩
  rw [write?, if_pos still]
  rfl

/-- Every action of a table has become another row of the same action, and one is under way only
if it was before or if its jobs are among those for which it may be. -/
def Onward (may : JobScope → Prop) (as as' : Actions) : Prop :=
  ∃ f : Action → Action, as' = as.map f ∧ ∀ a ∈ as, a.SameStart (f a) ∧
    ((f a).status = .processing → a.status = .processing ∨ may a.scope)

namespace Onward

variable {may : JobScope → Prop} {as'' : Actions}

theorem refl (as : Actions) : as.Onward may as :=
  ⟨id, by simp, fun a _ => ⟨.refl a, .inl⟩⟩

theorem trans (first : as.Onward may as') (second : as'.Onward may as'') :
    as.Onward may as'' := by
  obtain ⟨f, rfl, first⟩ := first
  obtain ⟨g, rfl, second⟩ := second
  refine ⟨g ∘ f, List.map_map, ?_⟩
  intro a member
  obtain ⟨same, status⟩ := first a member
  obtain ⟨same', status'⟩ := second (f a) (List.mem_map_of_mem member)
  refine ⟨same.trans same', fun processing => ?_⟩
  rcases status' processing with before | may
  · exact status before
  · exact .inr (same.scope ▸ may)

theorem ids (onward : as.Onward may as') : as'.ids = as.ids := by
  obtain ⟨f, rfl, kept⟩ := onward
  unfold Actions.ids
  rw [List.map_map]
  exact List.map_congr_left fun a member => (kept a member).1.id

/-- One row is written in the place of another of the same action. -/
theorem put (once : as.ids.Nodup) (there : a ∈ as) (same : a.SameStart row)
    (status : row.status = .processing → a.status = .processing ∨ may a.scope) :
    as.Onward may (as.put row) := by
  refine ⟨_, rfl, ?_⟩
  intro b member
  split
  · rename_i here
    obtain rfl := eq_of_id once member there (here.trans same.id)
    exact ⟨same, status⟩
  · exact ⟨.refl b, .inl⟩

end Onward

variable (s : ActionSettings) (q : Queue) (now : Int)

/-- A refresh of a row that is there: nothing when it has ended, and one write otherwise. -/
theorem refreshFrom_of_mem (there : a ∈ as) (tries : Nat) :
    refreshFrom s q now (tries + 1) as a =
      if a.status.isTerminal then (a, as)
      else
        let next := { a.refreshed s q now with rowVersion := a.rowVersion + 1 }
        (next, as.put next) := by
  have written := write?_of_mem there (a.refreshed_sameStart s q now).id
    (a.refreshed_rowVersion s q now)
  rw [refreshFrom]
  split
  · rfl
  · simp only [written, a.refreshed_rowVersion]

/-- Doing something to an action that is there: it is refused, or written once. -/
theorem control_of_found {id : String} (found : as.action? id = some a) (c : Control) :
    as.control s now id c =
      if c.isAllowed a.status then
        let next := { a.controlled s now c with rowVersion := a.rowVersion + 1 }
        (.ok next, as.put next)
      else (.error (.notAllowed id a.status c.target), as) := by
  have written := @write?_of_mem _ _ (a.controlled s now c) (mem_of_action? found).1 rfl rfl
  rw [control, writeTries, tryControl]
  simp only [found, written]
  rfl

/-- Adding an event to an action that is there is one write. -/
theorem append_of_found {id : String} (found : as.action? id = some a) (e : ActionEvent) :
    as.append s id e = as.put { a with
      report := a.report.push s.maxEvents e, updatedAt := e.moment
      rowVersion := a.rowVersion + 1 } := by
  have written := @write?_of_mem _ _
    { a with report := a.report.push s.maxEvents e, updatedAt := e.moment }
    (mem_of_action? found).1 rfl rfl
  rw [append, writeTries, tryAppend]
  simp only [found, written]

section Kept

variable (once : as.ids.Nodup) {may : JobScope → Prop}
include once

theorem refreshFrom_onward (there : a ∈ as) :
    as.Onward may (refreshFrom s q now writeTries as a).2 := by
  rw [writeTries, refreshFrom_of_mem s q now there]
  split
  · exact .refl as
  · refine .put once there ?_ ?_
    · exact a.refreshed_written s q now _
    · intro processing
      simp only [a.refreshed_status] at processing
      split at processing
      · exact .inl ‹_›
      · exact .inl processing

/-- Nothing but a resumption puts an action under way. -/
theorem control_onward (id : String) (c : Control)
    (resumes : c = .resume → ∀ a, as.action? id = some a → a.status = .paused → may a.scope) :
    as.Onward may (as.control s now id c).2 := by
  cases found : as.action? id with
  | none =>
    rw [control, writeTries, tryControl, found]
    exact .refl as
  | some a =>
    rw [control_of_found s now found]
    split
    · refine .put once (mem_of_action? found).1 ⟨rfl, rfl, rfl, rfl, rfl⟩ ?_
      intro processing
      cases c with
      | resume =>
        have paused : a.status = .paused := by
          cases status : a.status <;> simp_all [Control.isAllowed]
        exact .inr (resumes rfl a found paused)
      | pause | cancel => cases processing
    · exact .refl as

theorem append_onward (id : String) (e : ActionEvent) :
    as.Onward may (as.append s id e) := by
  cases found : as.action? id with
  | none =>
    rw [append, writeTries, tryAppend, found]
    exact .refl as
  | some a =>
    rw [append_of_found s found]
    exact .put once (mem_of_action? found).1 ⟨rfl, rfl, rfl, rfl, rfl⟩ .inl

/-- Actions that are there are refreshed one after the other. -/
theorem refreshAll_onward {rows : List Action} (there : ∀ a ∈ rows, a ∈ as)
    (apart : (rows.map (·.id)).Nodup) (expired : Nat) :
    as.Onward may (refreshAll s q now expired as rows).2 := by
  induction rows generalizing as expired with
  | nil => exact .refl as
  | cons a rest ih =>
    have first : as.Onward may (refreshFrom s q now writeTries as a).2 :=
      refreshFrom_onward s q now once (there a List.mem_cons_self)
    obtain ⟨absent, apart⟩ := List.nodup_cons.mp apart
    refine first.trans (ih (first.ids ▸ once) ?_ apart _)
    intro b later
    have member := there b (List.mem_cons_of_mem a later)
    rw [writeTries, refreshFrom_of_mem s q now (there a List.mem_cons_self)]
    split
    · exact member
    · refine mem_put_of_ne member ?_
      intro same
      have here : b.id = a.id := same.trans (a.refreshed_sameStart s q now).id
      exact absent (List.mem_map.mpr ⟨b, later, here⟩)

theorem expire_onward : as.Onward may (as.expire s q now).2 :=
  refreshAll_onward s q now once (fun _ member => (List.mem_filter.mp member).1)
    (once.sublist (List.filter_sublist.map _)) 0

end Kept

variable {workspace base : String}

/-- The action of a base that was started last is one of its actions. -/
theorem latest?_spec (latest : as.latest? workspace base = some a) :
    a ∈ as ∧ a.workspaceId = workspace ∧ a.baseId = base := by
  have member : a ∈ as.filter fun a => a.workspaceId = workspace && a.baseId = base := by
    refine (mem_of_picked ?_ _ latest).resolve_left (by simp)
    intro best a
    grind
  simpa using member

/-- Refreshing the latest action of a base: nothing when it has ended, and one write otherwise. -/
theorem refreshLatest_of_latest (latest : as.latest? workspace base = some a) :
    as.refreshLatest s q now workspace base =
      if a.status.isTerminal then (some a, as)
      else
        let next := { a.refreshed s q now with rowVersion := a.rowVersion + 1 }
        (some next, as.put next) := by
  simp only [refreshLatest, latest, writeTries,
    refreshFrom_of_mem s q now (latest?_spec latest).1]
  split <;> rfl

/-- Rows that become others of the same actions leave the latest one where it is. -/
theorem latest?_map {f : Action → Action} (same : ∀ a ∈ as, a.SameStart (f a)) :
    latest? (as.map f) workspace base = (as.latest? workspace base).map f := by
  have chosen : ((as.map f).filter fun a => a.workspaceId = workspace && a.baseId = base) =
      (as.filter fun a => a.workspaceId = workspace && a.baseId = base).map f := by
    rw [List.filter_map]
    refine congrArg (List.map f) (List.filter_congr ?_)
    intro a member
    simp only [Function.comp, (same a member).workspace, (same a member).base]
  unfold latest?
  rw [chosen]
  refine picked_map (P := (· ∈ as)) ?_ ?_ _ (fun a member => (List.mem_filter.mp member).1) none
    (by simp)
  · intro best a
    grind
  · intro best a known member
    cases best with
    | none => rfl
    | some b =>
      have known := known b rfl
      simp only [Option.map_some, (same a member).created, (same b known).created]
      split <;> rfl

/-- The latest action of a base stays the latest when another row of it is put in its place. -/
theorem latest?_put (once : as.ids.Nodup) (same : a.SameStart row)
    (latest : as.latest? workspace base = some a) :
    (as.put row).latest? workspace base = some row := by
  have there := (latest?_spec latest).1
  have kept : ∀ b ∈ as, b.SameStart (if b.id = row.id then row else b) := by
    intro b member
    by_cases here : b.id = row.id
    · rw [if_pos here, eq_of_id once member there (here.trans same.id)]
      exact same
    · rw [if_neg here]
      exact .refl b
  rw [put, latest?_map kept, latest, Option.map_some, if_pos same.id.symm]

theorem Onward.latest? {may : JobScope → Prop} (onward : as.Onward may as')
    {b : Action} (latest : as'.latest? workspace base = some b) :
    ∃ a, as.latest? workspace base = some a ∧ a.SameStart b ∧
      (b.status = .processing → a.status = .processing ∨ may a.scope) := by
  obtain ⟨f, rfl, kept⟩ := onward
  rw [latest?_map fun a member => (kept a member).1] at latest
  obtain ⟨a, latest', rfl⟩ := Option.map_eq_some_iff.mp latest
  exact ⟨a, latest', kept a (latest?_spec latest').1⟩

theorem latest?_started (as : Actions) (row : Action) (workspace base : String) :
    latest? (as ++ [row]) workspace base = some row ∧
      row.workspaceId = workspace ∧ row.baseId = base ∨
    latest? (as ++ [row]) workspace base = as.latest? workspace base := by
  by_cases own : row.workspaceId = workspace ∧ row.baseId = base
  · simp only [latest?, List.filter_append, List.foldl_append, own, List.filter_cons]
    simp only [decide_true, Bool.and_self, if_true, List.filter_nil, List.foldl_cons,
      List.foldl_nil, and_true]
    grind
  · refine .inr ?_
    have other : ([row].filter fun a => a.workspaceId = workspace && a.baseId = base) = [] := by
      simpa [List.filter_cons] using own
    simp only [latest?, List.filter_append, other, List.append_nil]

end Actions

namespace Sample

def action : Action := .fresh {} 1000 "a" "w" "b" {}

def jobOf (id : String) (status : JobStatus) : Job :=
  { id, workspaceId := "w", baseId := "b", documentId := id, versionId := "v1", status
    attempts := 0, lastError := none, scheduledAt := 1000, claimedAt := none, createdAt := 1000
    updatedAt := 1000, finishedAt := none }

end Sample

end IndexingPipeline
