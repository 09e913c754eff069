import IndexingPipeline.Proofs.Actions
import IndexingPipeline.Proofs.Docket

/-!
# Draining a queue

The job that is due first has only later ones before it in the queue, and none that is sooner behind
it. Claiming it takes it out of those that are due and changes nothing else. So claims that follow
one another at one moment, whoever makes them, hand out every job that is due once and in order, and
then nothing. Whatever else is done to a queue, no job leaves it, and only asking for a version adds
one.
-/

namespace IndexingPipeline

namespace Queue

section Soonest

variable {a b c : Job}

theorem isSooner_iff : isSooner a b = true ↔ a.scheduledAt < b.scheduledAt ∨
    a.scheduledAt = b.scheduledAt ∧ a.createdAt < b.createdAt := by
  simp [isSooner]

theorem not_isSooner_iff : isSooner a b = false ↔ b.scheduledAt < a.scheduledAt ∨
    b.scheduledAt = a.scheduledAt ∧ b.createdAt ≤ a.createdAt := by
  rw [← Bool.not_eq_true, isSooner_iff]
  omega

theorem isSooner_trans (first : isSooner a b = true) (second : isSooner b c = true) :
    isSooner a c = true := by
  rw [isSooner_iff] at *
  omega

theorem isSooner_of_later (first : isSooner a b = true) (second : isSooner c b = false) :
    isSooner a c = true := by
  rw [isSooner_iff] at *
  rw [not_isSooner_iff] at second
  omega

theorem soonest?_cons_cons (b c : Job) (rest : Queue) :
    soonest? (b :: c :: rest) = soonest? ((if isSooner c b then c else b) :: rest) := by
  unfold soonest?
  simp only [List.foldl_cons]
  split <;> rfl

/-- The first job is due first unless one behind it is sooner. -/
theorem soonest?_cons (b : Job) (rest : Queue) :
    (soonest? (b :: rest) = some b ∧ ∀ k ∈ rest, isSooner k b = false) ∨
    ∃ before j behind, rest = before ++ j :: behind ∧ soonest? (b :: rest) = some j ∧
      isSooner j b = true ∧ (∀ k ∈ before, isSooner j k = true) ∧
      ∀ k ∈ behind, isSooner k j = false := by
  induction rest generalizing b with
  | nil => exact .inl ⟨rfl, fun _ member => absurd member List.not_mem_nil⟩
  | cons c rest ih =>
    rw [soonest?_cons_cons]
    by_cases sooner : isSooner c b = true
    · rw [if_pos sooner]
      right
      rcases ih c with ⟨found, none_sooner⟩ | ⟨before, j, behind, rfl, found, first, early, late⟩
      · refine ⟨[], c, rest, rfl, found, sooner, ?_, none_sooner⟩
        exact fun _ member => absurd member List.not_mem_nil
      · refine ⟨c :: before, j, behind, rfl, found, isSooner_trans first sooner, ?_, late⟩
        exact List.forall_mem_cons.mpr ⟨first, early⟩
    · rw [if_neg sooner]
      rw [Bool.not_eq_true] at sooner
      rcases ih b with ⟨found, none_sooner⟩ | ⟨before, j, behind, rfl, found, first, early, late⟩
      · exact .inl ⟨found, List.forall_mem_cons.mpr ⟨sooner, none_sooner⟩⟩
      · right
        refine ⟨c :: before, j, behind, rfl, found, first, ?_, late⟩
        exact List.forall_mem_cons.mpr ⟨isSooner_of_later first sooner, early⟩

/-- Where the job that is due first stands: those before it are later, those behind it not
sooner. -/
theorem soonest?_split (q : Queue) :
    (q = [] ∧ q.soonest? = none) ∨
    ∃ before j behind, q = before ++ j :: behind ∧ q.soonest? = some j ∧
      (∀ k ∈ before, isSooner j k = true) ∧ ∀ k ∈ behind, isSooner k j = false := by
  cases q with
  | nil => exact .inl ⟨rfl, rfl⟩
  | cons b rest =>
    right
    rcases soonest?_cons b rest with
      ⟨found, none_sooner⟩ | ⟨before, j, behind, rfl, found, first, early, late⟩
    · refine ⟨[], b, rest, rfl, found, ?_, none_sooner⟩
      exact fun _ member => absurd member List.not_mem_nil
    · refine ⟨b :: before, j, behind, rfl, found, ?_, late⟩
      exact List.forall_mem_cons.mpr ⟨first, early⟩

end Soonest

/-- Whether a job of a queue comes before another: by its time, then by the moment at which it was
added, then by its place. -/
def Precedes (q : Queue) (a b : Job) : Prop :=
  a.scheduledAt < b.scheduledAt ∨ a.scheduledAt = b.scheduledAt ∧
    (a.createdAt < b.createdAt ∨ a.createdAt = b.createdAt ∧ [a, b].Sublist q)

variable {q : Queue} {now : Int}

theorem Precedes.of_part {part : Queue} (within : part.Sublist q) {a b : Job}
    (first : part.Precedes a b) : q.Precedes a b := by
  rcases first with time | ⟨time, moment | ⟨moment, place⟩⟩
  · exact .inl time
  · exact .inr ⟨time, .inl moment⟩
  · exact .inr ⟨time, .inr ⟨moment, place.trans within⟩⟩

theorem precedes_of_split {before behind : Queue} {j : Job}
    (early : ∀ k ∈ before, isSooner j k = true) (late : ∀ k ∈ behind, isSooner k j = false) :
    ∀ k ∈ before ++ behind, Precedes (before ++ j :: behind) j k := by
  intro k member
  rcases List.mem_append.mp member with there | there
  · rcases isSooner_iff.mp (early k there) with time | ⟨time, moment⟩
    · exact .inl time
    · exact .inr ⟨time, .inl moment⟩
  · rcases not_isSooner_iff.mp (late k there) with time | ⟨time, moment⟩
    · exact .inl time
    · refine .inr ⟨time, (Int.lt_or_eq_of_le moment).imp_right fun same => ⟨same, ?_⟩⟩
      exact (List.Sublist.cons_cons j (List.singleton_sublist.mpr there)).trans
        (List.sublist_append_right before (j :: behind))

/-- The jobs that are due when one of them has been claimed. -/
theorem due_update (q : Queue) (now : Int) (id : String) :
    (q.update id (Job.taken now)).due now = (q.due now).filter (·.id ≠ id) := by
  induction q with
  | nil => rfl
  | cons j rest ih =>
    unfold update due at ih ⊢
    rw [List.map_cons, List.filter_cons, List.filter_cons, ih]
    by_cases here : j.id = id
    · by_cases isDue : (j.status = .pending && j.scheduledAt ≤ now) = true <;>
        simp [here, Job.taken, isDue]
    · by_cases isDue : (j.status = .pending && j.scheduledAt ≤ now) = true <;>
        simp [here, isDue]

theorem filter_split {before behind : Queue} {j : Job}
    (once : (ids (before ++ j :: behind)).Nodup) :
    (before ++ j :: behind).filter (·.id ≠ j.id) = before ++ behind := by
  have apart : ∀ k ∈ before ++ behind, k.id ≠ j.id := by
    intro k member same
    have others := (List.perm_middle.map fun j : Job => j.id).nodup_iff.mp once
    exact (List.nodup_cons.mp others).1 (List.mem_map.mpr ⟨k, member, same⟩)
  rw [List.forall_mem_append] at apart
  rw [List.filter_append, List.filter_cons_of_neg (by simp),
    List.filter_eq_self.mpr fun k member => decide_eq_true (apart.1 k member),
    List.filter_eq_self.mpr fun k member => decide_eq_true (apart.2 k member)]

/-- A claim leaves those that are due before the job and behind it. -/
theorem due_claimed (once : q.ids.Nodup) {before behind : Queue} {j : Job}
    (split : q.due now = before ++ j :: behind) :
    (q.update j.id (Job.taken now)).due now = before ++ behind := by
  have within : (q.due now).Sublist q := List.filter_sublist
  rw [due_update, split, filter_split (split ▸ once.sublist (within.map _))]

/-- Claim so many times, one after another and all at one moment: what was claimed each time, and
the queue in the end. -/
def claims (q : Queue) (now : Int) : Nat → List (Option Job) × Queue
  | 0 => ([], q)
  | n + 1 =>
    let (job, left) := q.claim now
    let (jobs, left) := claims left now n
    (job :: jobs, left)

theorem claims_succ {job : Option Job} {left : Queue} (claimed : q.claim now = (job, left))
    (n : Nat) : q.claims now (n + 1) = (job :: (left.claims now n).1, (left.claims now n).2) := by
  rw [claims, claimed]

theorem claims_of_none (nothing : q.claim now = (none, q)) (n : Nat) :
    q.claims now n = (List.replicate n none, q) := by
  induction n with
  | zero => rfl
  | succ n ih => rw [claims_succ nothing, ih, List.replicate_succ]

/-- A queue in which some jobs have been claimed. -/
def withTaken (q : Queue) (now : Int) (jobs : List Job) : Queue :=
  q.map fun j => if j ∈ jobs then j.taken now else j

theorem withTaken_nil (q : Queue) (now : Int) : q.withTaken now [] = q := by
  simp [withTaken]

/-- Jobs that are due after a claim are not the one that was claimed, neither as it was nor as it
has become. -/
theorem withTaken_update (once : q.ids.Nodup) {j : Job} (there : j ∈ q) {jobs : List Job}
    (rest : ∀ k ∈ jobs, k.status = .pending ∧ k.id ≠ j.id) :
    (q.update j.id (Job.taken now)).withTaken now jobs = q.withTaken now (j :: jobs) := by
  unfold withTaken update
  rw [List.map_map]
  refine List.map_congr_left fun x member => ?_
  by_cases here : x.id = j.id
  · obtain rfl := eq_of_found once (job?_of_mem once there) member here
    have gone : x.taken now ∉ jobs := fun again => (rest _ again).2 rfl
    simp [gone]
  · have other : x ≠ j := fun same => here (same ▸ rfl)
    simp [here, other]

/-- What comes of any number of claims, told by the order in which jobs are due. -/
structure Drains (q : Queue) (now : Int) (order : List Job) : Prop where
  perm : order.Perm (q.due now)
  sorted : order.Pairwise (q.due now).Precedes
  claims : ∀ n, q.claims now n =
    ((order.take n).map (fun j => some (j.taken now)) ++ List.replicate (n - order.length) none,
      q.withTaken now (order.take n))

theorem drains_nil (nothing : q.due now = []) : q.Drains now [] where
  perm := nothing ▸ List.Perm.refl []
  sorted := List.Pairwise.nil
  claims := by
    intro n
    have idle : q.claim now = (none, q) := by
      rw [claim, nothing]
      rfl
    rw [claims_of_none idle, List.take_nil, withTaken_nil]
    rfl

/-- A claim takes the job that is due first, and later claims take the others. -/
theorem Drains.cons (once : q.ids.Nodup) {before behind : Queue} {j : Job}
    (split : q.due now = before ++ j :: behind) (first : soonest? (q.due now) = some j)
    (early : ∀ k ∈ before, isSooner j k = true) (late : ∀ k ∈ behind, isSooner k j = false)
    {order : List Job} (drains : Drains (q.update j.id (Job.taken now)) now order) :
    q.Drains now (j :: order) := by
  have within : (q.due now).Sublist q := List.filter_sublist
  have there : j ∈ q.due now := split ▸ List.mem_append_right before List.mem_cons_self
  have others : (q.update j.id (Job.taken now)).due now = (q.due now).filter (·.id ≠ j.id) :=
    due_update q now j.id
  have perm : order.Perm (before ++ behind) := due_claimed once split ▸ drains.perm
  have claimed : q.claim now = (some (j.taken now), q.update j.id (Job.taken now)) := by
    rw [claim, first]
    rfl
  refine ⟨?_, List.pairwise_cons.mpr ⟨?_, ?_⟩, fun n => ?_⟩
  · exact (perm.cons j).trans (split ▸ List.perm_middle.symm)
  · intro k member
    exact split ▸ precedes_of_split early late k (perm.mem_iff.mp member)
  · exact drains.sorted.imp fun sooner => .of_part (others ▸ List.filter_sublist) sooner
  · cases n with
    | zero => simp [Queue.claims, withTaken_nil]
    | succ n =>
      have rest : ∀ k ∈ order.take n, k.status = .pending ∧ k.id ≠ j.id := by
        intro k member
        have stillDue := drains.perm.mem_iff.mp (List.mem_of_mem_take member)
        rw [others] at stillDue
        obtain ⟨isDue, other⟩ := List.mem_filter.mp stillDue
        have pending := (List.mem_filter.mp isDue).2
        simp only [Bool.and_eq_true, decide_eq_true_eq] at pending other
        exact ⟨pending.1, other⟩
      rw [claims_succ claimed]
      simp only [drains.claims n, withTaken_update once (within.subset there) rest,
        List.take_succ_cons, List.map_cons, List.length_cons, Nat.add_sub_add_right,
        List.cons_append]

/-- The jobs that are due in a queue have an order in which they are claimed. -/
theorem exists_drains (once : q.ids.Nodup) (now : Int) : ∃ order, q.Drains now order := by
  -- by how many jobs are due, which every claim makes fewer
  induction size : (q.due now).length generalizing q with
  | zero => exact ⟨[], drains_nil (List.length_eq_zero_iff.mp size)⟩
  | succ n ih =>
    rcases soonest?_split (q.due now) with
      ⟨nothing, _⟩ | ⟨before, j, behind, split, first, early, late⟩
    · rw [nothing] at size
      cases size
    · have left : ((q.update j.id (Job.taken now)).due now).length = n := by
        rw [due_claimed once split]
        rw [split] at size
        simp only [List.length_append, List.length_cons] at size ⊢
        omega
      have same : (q.update j.id (Job.taken now)).ids = q.ids := ids_update (Job.taken_id now)
      obtain ⟨order, drains⟩ := ih (same.symm ▸ once) left
      exact ⟨j :: order, drains.cons once split first early late⟩

inductive Request where
  | enqueue (now : Int) (newId workspace base document version : String)
  | claim (now : Int)
  /-- Recover the jobs of workers that are taken to be dead. -/
  | recover (settings : WorkerSettings) (now : Int)
  | report (settings : WorkerSettings) (now : Int) (job : Job) (v : Verdict)

namespace Request

def run (q : Queue) : Request → Queue
  | enqueue now newId workspace base document version =>
    (q.enqueue now newId workspace base document version).2
  | claim now => (q.claim now).2
  | recover settings now => (q.recover settings now).2
  | report settings now job v => v.write settings now job q

/-- The identifier of the job that a request may add. -/
def newId? : Request → Option String
  | enqueue _ newId _ _ _ _ => some newId
  | _ => none

/-- No request drops a job or puts it in another place, and one that asks for a version may add one
behind them. -/
theorem ids_run (q : Queue) (r : Request) :
    ∃ added, (r.run q).ids = q.ids ++ added ∧ added.Sublist r.newId?.toList := by
  cases r with
  | enqueue now newId workspace base document version =>
    rcases q.ids_enqueue now newId workspace base document version with same | more
    · exact ⟨[], by rw [List.append_nil, ← same]; rfl, List.nil_sublist _⟩
    · exact ⟨[newId], more, List.Sublist.refl _⟩
  | claim now => exact ⟨[], by rw [List.append_nil, ← q.ids_claim now]; rfl, List.nil_sublist _⟩
  | recover settings now =>
    exact ⟨[], by rw [List.append_nil, ← q.ids_recover settings now]; rfl, List.nil_sublist _⟩
  | report settings now job v =>
    refine ⟨[], ?_, List.nil_sublist _⟩
    rw [List.append_nil, run, v.write_eq, ids_update fun j => v.row_id settings now job j]

theorem ids_runAll (q : Queue) (rs : List Request) :
    ∃ added, (rs.foldl run q).ids = q.ids ++ added ∧ added.Sublist (rs.filterMap newId?) := by
  induction rs generalizing q with
  | nil => exact ⟨[], (List.append_nil _).symm, List.Sublist.refl _⟩
  | cons r rest ih =>
    obtain ⟨first, ids, fromFirst⟩ := ids_run q r
    obtain ⟨later, idsLater, fromLater⟩ := ih (r.run q)
    refine ⟨first ++ later, ?_, ?_⟩
    · rw [List.foldl_cons, idsLater, ids, List.append_assoc]
    · have both := fromFirst.append fromLater
      cases new : r.newId? <;> simpa [List.filterMap_cons, new] using both

end Request

end Queue

/-- In any queue with one row for each job: however many claims follow one another at one moment,
and whoever makes them, they hand out the jobs that are due, each once, by their times, then by the
moments at which they were added, then by their places, and after the last of them nothing. A job
that was handed out is under way since that moment, and that is all that has changed. Whatever else
is asked of a queue, every job stays and keeps its place, and none is added but at the end, by
asking for a version, and at most one each time. -/
theorem claims_drain (q : Queue) (once : q.ids.Nodup) (now : Int) :
    (∃ order : List Job, order.Perm (q.due now) ∧ order.Pairwise q.Precedes ∧
      ∀ n, q.claims now n =
        ((order.take n).map (fun j => some (j.taken now)) ++
            List.replicate (n - order.length) none,
          q.map fun j => if j ∈ order.take n then j.taken now else j)) ∧
    ∀ rs : List Queue.Request, ∃ added, (rs.foldl Queue.Request.run q).ids = q.ids ++ added ∧
      added.Sublist (rs.filterMap Queue.Request.newId?) := by
  refine ⟨?_, Queue.Request.ids_runAll q⟩
  obtain ⟨order, drains⟩ := Queue.exists_drains once now
  refine ⟨order, drains.perm, ?_, drains.claims⟩
  exact drains.sorted.imp fun sooner => .of_part List.filter_sublist sooner

namespace Sample

def waiting (id : String) (scheduledAt createdAt : Int) : Job :=
  { jobOf id .pending with scheduledAt, createdAt }

/-- Jobs of which three are due at one moment, two of them in the order of their places. -/
def backlog : Queue :=
  [waiting "late" 900 100, waiting "first" 300 200, waiting "second" 300 200,
    waiting "early" 300 100]

end Sample

theorem claims_drain_sample :
    Sample.backlog.ids.Nodup ∧
    ∃ order : List Job, order.Perm (Sample.backlog.due 500) ∧
      order.Pairwise Sample.backlog.Precedes ∧
      (Sample.backlog.claims 500 4).1 = order.map (fun j => some (j.taken 500)) ++ [none] := by
  have once : Sample.backlog.ids.Nodup := by decide
  obtain ⟨order, perm, sorted, claims⟩ := (claims_drain Sample.backlog once 500).1
  have three : order.length = 3 := perm.length_eq.trans (by decide)
  refine ⟨once, order, perm, sorted, ?_⟩
  rw [claims 4, List.take_of_length_le (by omega), three]
  rfl

example : (Sample.backlog.claims 500 4).1.map (·.map (·.id)) =
    [some "early", some "first", some "second", none] := by decide

end IndexingPipeline
