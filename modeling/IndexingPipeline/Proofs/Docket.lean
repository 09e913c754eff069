import IndexingPipeline.Proofs.Index
import IndexingPipeline.Proofs.Lifecycle

/-!
# What there is of one document

The docket of a document is its row and its jobs, the rest of the database left out. Writing the
document and asking for the version points the job that waits for it at the version, or adds one
when none waits; claiming and reporting change one job, recovering may change all of them. What
is done to another document or to its jobs leaves the docket alone.
-/

namespace IndexingPipeline

def Job.isOf (workspace id : String) (j : Job) : Bool :=
  j.workspaceId = workspace && j.documentId = id

/-- Whether a job waits or is under way. -/
def Job.isActive (j : Job) : Bool := j.status = .pending || j.status = .processing

theorem Job.isOf_iff {workspace id : String} {j : Job} :
    j.isOf workspace id = true ↔ j.workspaceId = workspace ∧ j.documentId = id := by
  simp [isOf]

theorem Job.isOf_eq_false {workspace id : String} {j : Job} :
    j.isOf workspace id = false ↔ ¬ (j.workspaceId = workspace ∧ j.documentId = id) := by
  simp [isOf]

theorem Job.SameRequest.isOf {j k : Job} (same : j.SameRequest k) (workspace id : String) :
    k.isOf workspace id = j.isOf workspace id := by
  rw [Job.isOf, Job.isOf, same.workspace, same.document]

theorem Job.isActive_iff {j : Job} :
    j.isActive = true ↔ j.status = .pending ∨ j.status = .processing := by
  simp [isActive]

namespace Queue

def ofDocument (q : Queue) (workspace id : String) : Queue := q.filter (·.isOf workspace id)

variable {q : Queue} {workspace id : String}

theorem mem_ofDocument {j : Job} :
    j ∈ q.ofDocument workspace id ↔ j ∈ q ∧ j.isOf workspace id = true := List.mem_filter

theorem ofDocument_once (once : q.ids.Nodup) : (q.ofDocument workspace id).ids.Nodup :=
  once.sublist (List.filter_sublist.map _)

theorem ofDocument_map {f : Job → Job}
    (keeps : ∀ j, (f j).isOf workspace id = j.isOf workspace id) :
    ofDocument (q.map f) workspace id = (q.ofDocument workspace id).map f := by
  have same : (fun j : Job => j.isOf workspace id) ∘ f = fun j => j.isOf workspace id := by
    funext j
    exact keeps j
  rw [ofDocument, List.filter_map, same]
  rfl

theorem ofDocument_update {f : Job → Job} (key : String)
    (keeps : ∀ j, (f j).isOf workspace id = j.isOf workspace id) :
    (q.update key f).ofDocument workspace id = (q.ofDocument workspace id).update key f := by
  refine ofDocument_map ?_
  intro j
  split
  · exact keeps j
  · rfl

theorem ofDocument_added {j : Job} (own : j.isOf workspace id = true) :
    ofDocument (q ++ [j]) workspace id = q.ofDocument workspace id ++ [j] := by
  simp [ofDocument, own]

theorem ofDocument_added_other {j : Job} (other : j.isOf workspace id = false) :
    ofDocument (q ++ [j]) workspace id = q.ofDocument workspace id := by
  simp [ofDocument, other]

theorem update_absent {key : String} {f : Job → Job} (absent : ∀ j ∈ q, j.id ≠ key) :
    q.update key f = q := by
  refine Eq.trans (List.map_congr_left ?_) (List.map_id q)
  intro j member
  exact if_neg (absent j member)

/-- A row that is found is that of every job of its identifier. -/
theorem eq_of_found {key : String} {a j : Job} (once : q.ids.Nodup) (found : q.job? key = some a)
    (member : j ∈ q) (same : j.id = key) : j = a := by
  have row := job?_of_mem once member
  rw [same, found] at row
  exact (Option.some.inj row).symm

theorem mem_of_job? {key : String} {a : Job} (found : q.job? key = some a) :
    a ∈ q ∧ a.id = key :=
  ⟨List.mem_of_find?_eq_some found, by simpa using List.find?_some found⟩

/-- One job of a queue has become another, and the others are as they were. -/
structure Changed (j j' : Job) (a b : Queue) : Prop where
  there : j ∈ a
  mem : ∀ x, x ∈ b ↔ x = j' ∨ x ∈ a ∧ x ≠ j

theorem changed_update {j j' : Job} {f : Job → Job} (once : q.ids.Nodup) (there : j ∈ q)
    (becomes : f j = j') : Changed j j' q (q.update j.id f) where
  there := there
  mem := by
    have only : ∀ k ∈ q, k.id = j.id → k = j := fun k member =>
      eq_of_found once (job?_of_mem once there) member
    intro x
    constructor
    · intro member
      obtain ⟨k, old, rfl⟩ := List.mem_map.mp member
      by_cases here : k.id = j.id
      · obtain rfl := only k old here
        exact .inl ((if_pos rfl).trans becomes)
      · rw [if_neg here]
        refine .inr ⟨old, ?_⟩
        rintro rfl
        exact here rfl
    · rintro (rfl | ⟨old, other⟩)
      · exact List.mem_map.mpr ⟨j, there, (if_pos rfl).trans becomes⟩
      · exact List.mem_map.mpr ⟨x, old, if_neg fun same => other (only x old same)⟩

/-- A change of a job of another document leaves alone the jobs of this one. -/
theorem ofDocument_update_other {f : Job → Job} {a : Job} (once : q.ids.Nodup)
    (found : q.job? a.id = some a) (other : a.isOf workspace id = false)
    (keeps : ∀ j, (f j).isOf workspace id = j.isOf workspace id) :
    (q.update a.id f).ofDocument workspace id = q.ofDocument workspace id := by
  rw [ofDocument_update a.id keeps]
  refine update_absent ?_
  intro j member same
  obtain ⟨there, own⟩ := mem_ofDocument.mp member
  rw [eq_of_found once found there same, other] at own
  cases own

theorem ofDocument_changed {f : Job → Job} {a a' : Job} (once : q.ids.Nodup)
    (found : q.job? a.id = some a) (own : a.isOf workspace id = true)
    (keeps : ∀ j, (f j).isOf workspace id = j.isOf workspace id) (becomes : f a = a') :
    Changed a a' (q.ofDocument workspace id) ((q.update a.id f).ofDocument workspace id) := by
  rw [ofDocument_update a.id keeps]
  exact changed_update (ofDocument_once once) (mem_ofDocument.mpr ⟨(mem_of_job? found).1, own⟩)
    becomes

/-- When nobody is taken to be dead there is nothing to recover. -/
theorem recover_none {settings : WorkerSettings} {now : Int}
    (fresh : ∀ j ∈ q, ¬ isStale settings now j = true) : (q.recover settings now).2 = q :=
  Eq.trans (List.map_congr_left fun j member => if_neg (fresh j member)) (List.map_id q)

theorem newest?_eq_none : q.newest? = none ↔ q = [] := by
  constructor
  · intro nothing
    cases q with
    | nil => rfl
    | cons j rest =>
      -- once there is a best job there always is one
      have some_best : newest? (j :: rest) ≠ none := by
        refine List.foldlRecOn (motive := (· ≠ none)) rest _ (Option.some_ne_none j) ?_
        intro best _ k _
        split
        · simp
        · split <;> simp
      exact absurd nothing some_best
  · rintro rfl
    rfl

theorem waiting?_eq_none : q.waiting? workspace id = none ↔
    ∀ j ∈ q.ofDocument workspace id, j.status ≠ .pending := by
  simp only [waiting?, newest?_eq_none, List.filter_eq_nil_iff, mem_ofDocument, Job.isOf_iff,
    Bool.and_eq_true, decide_eq_true_eq]
  constructor
  · rintro nothing j ⟨member, own⟩ waits
    exact nothing j member ⟨own, waits⟩
  · rintro nothing j member ⟨own, waits⟩
    exact nothing j ⟨member, own⟩ waits

/-- The jobs of a document before and after one of its versions was asked for. -/
inductive Asked (version : String) : Queue → Queue → Prop
  | pointed {a b : Queue} (j j' : Job) : j.status = .pending → j'.status = .pending →
      j'.versionId = version → j'.attempts = j.attempts → Changed j j' a b → Asked version a b
  | added {a b : Queue} (j' : Job) : (∀ k ∈ a, k.status ≠ .pending) → j'.status = .pending →
      j'.versionId = version → j'.attempts = 0 → (∀ x, x ∈ b ↔ x = j' ∨ x ∈ a) →
      Asked version a b

theorem asked_added {j : Job} {version : String} (alone : ∀ k ∈ q, k.status ≠ .pending)
    (waits : j.status = .pending) (asked : j.versionId = version) (new : j.attempts = 0) :
    Asked version q (q ++ [j]) := by
  refine .added j alone waits asked new ?_
  intro x
  rw [List.mem_append, List.mem_singleton]
  exact or_comm

theorem asked_enqueue (once : q.ids.Nodup) (now : Int)
    (newId workspace base id version : String) :
    Asked version (q.ofDocument workspace id)
      ((q.enqueue now newId workspace base id version).2.ofDocument workspace id) := by
  rcases q.enqueue_cases now newId workspace base id version with
    ⟨j, waits, pointed⟩ | ⟨free, added⟩
  · obtain ⟨member, here, there, pending⟩ := waiting?_spec waits
    have own : j ∈ q.ofDocument workspace id :=
      mem_ofDocument.mpr ⟨member, Job.isOf_iff.mpr ⟨here, there⟩⟩
    rw [pointed, ofDocument_update j.id (by intro j; rfl)]
    exact .pointed j (j.pointedAt version now) pending pending rfl rfl
      (changed_update (ofDocument_once once) own rfl)
  · have own : (Job.asked now newId workspace base id version).isOf workspace id = true :=
      Job.isOf_iff.mpr ⟨rfl, rfl⟩
    rw [added, ofDocument_added own]
    exact asked_added (waiting?_eq_none.mp free) rfl rfl rfl

theorem Asked.waits {version : String} {a b : Queue} (asked : Asked version a b) :
    ∃ j ∈ b, j.status = .pending ∧ j.versionId = version := by
  cases asked with
  | pointed j j' _ waits version _ changed =>
    exact ⟨j', (changed.mem j').mpr (.inl rfl), waits, version⟩
  | added j' _ waits version _ mem => exact ⟨j', (mem j').mpr (.inl rfl), waits, version⟩

/-- When at most one job waited before, only one waits now. -/
theorem Asked.one {version : String} {a b : Queue} (asked : Asked version a b)
    (one : ∀ j ∈ a, ∀ k ∈ a, j.status = .pending → k.status = .pending → j = k) :
    ∀ j ∈ b, ∀ k ∈ b, j.status = .pending → k.status = .pending → j = k := by
  have sole : ∃ x, ∀ k ∈ b, k.status = .pending → k = x := by
    cases asked with
    | pointed j j' waited _ _ _ changed =>
      refine ⟨j', fun k member pending => ?_⟩
      rcases (changed.mem k).mp member with same | ⟨old, other⟩
      · exact same
      · exact absurd (one k old j changed.there pending waited) other
    | added j' none_waited _ _ _ mem =>
      refine ⟨j', fun k member pending => ?_⟩
      rcases (mem k).mp member with same | old
      · exact same
      · exact absurd pending (none_waited k old)
  obtain ⟨x, sole⟩ := sole
  intro j hj k hk pending pending'
  rw [sole j hj pending, sole k hk pending']

theorem ofDocument_enqueue_other {workspace' id' : String} (once : q.ids.Nodup)
    (other : ¬ (workspace' = workspace ∧ id' = id)) (now : Int) (newId base version : String) :
    (q.enqueue now newId workspace' base id' version).2.ofDocument workspace id =
      q.ofDocument workspace id := by
  rcases q.enqueue_cases now newId workspace' base id' version with
    ⟨j, waits, pointed⟩ | ⟨_, added⟩
  · obtain ⟨member, rfl, rfl, _⟩ := waiting?_spec waits
    rw [pointed]
    exact ofDocument_update_other once (job?_of_mem once member) (Job.isOf_eq_false.mpr other)
      fun _ => rfl
  · rw [added]
    exact ofDocument_added_other (Job.isOf_eq_false.mpr other)

end Queue

namespace Documents

variable {ds : Documents} {workspace id workspace' id' : String}

theorem isAt_other (other : ¬ (workspace' = workspace ∧ id' = id)) {d : Document}
    (here : isAt workspace id d = true) : isAt workspace' id' d = false := by
  obtain ⟨rfl, rfl⟩ := isAt_iff.mp here
  rw [← Bool.not_eq_true, isAt_iff]
  exact fun there => other ⟨there.1.symm, there.2.symm⟩

theorem document?_update_other (other : ¬ (workspace' = workspace ∧ id' = id))
    {f : Document → Document} (keeps : ∀ d, isAt workspace id (f d) = isAt workspace id d) :
    (ds.update workspace' id' f).document? workspace id = ds.document? workspace id := by
  have same : isAt workspace id ∘ (fun d => if isAt workspace' id' d then f d else d) =
      isAt workspace id := by
    funext d
    by_cases there : isAt workspace' id' d <;> simp [there, keeps]
  rw [document?, update, List.find?_map, same]
  cases found : ds.find? (isAt workspace id) with
  | none => simp [document?, found]
  | some d => simp [document?, found, isAt_other other (List.find?_some found)]

/-- A document that was written: its version and body are as they were given, its index follows
no further than before, and says that it has to. -/
structure Written (version body : String) (before : Option Document) (d : Document) : Prop where
  version : d.versionId = version
  body : d.body = body
  status : d.indexStatus = .pending
  revision : d.currentRevisionId = before.bind (·.currentRevisionId)
  indexed : d.indexedVersionId = before.bind (·.indexedVersionId)

theorem document?_put (ds : Documents) (now : Int) (workspace base id version body : String) :
    ∃ d, (ds.put now workspace base id version body).document? workspace id = some d ∧
      Written version body (ds.document? workspace id) d := by
  rcases ds.put_cases now workspace base id version body with
    ⟨d, found, rewritten⟩ | ⟨missing, added⟩
  · rw [rewritten, document?_update (by intro d; rfl), found]
    exact ⟨_, rfl, rfl, rfl, rfl, rfl, rfl⟩
  · have own : isAt workspace id (Document.added now workspace base id version body) = true :=
      isAt_iff.mpr ⟨rfl, rfl⟩
    rw [added, document?_added, missing, Option.none_or, if_pos own]
    exact ⟨_, rfl, rfl, rfl, rfl, rfl, rfl⟩

theorem document?_put_other (ds : Documents) {workspace id workspace' id' : String}
    (other : ¬ (workspace' = workspace ∧ id' = id)) (now : Int) (base version body : String) :
    (ds.put now workspace' base id' version body).document? workspace id =
      ds.document? workspace id := by
  rcases ds.put_cases now workspace' base id' version body with
    ⟨_, _, rewritten⟩ | ⟨_, added⟩
  · rw [rewritten]
    exact document?_update_other other fun _ => rfl
  · have elsewhere : ¬ isAt workspace id
        (Document.added now workspace' base id' version body) = true :=
      fun here => other (isAt_iff.mp here)
    rw [added, document?_added, if_neg elsewhere, Option.or_none]

end Documents

structure Docket where
  document : Option Document
  jobs : Queue

def World.docket (w : World) (workspace id : String) : Docket :=
  ⟨w.db.documents.document? workspace id, w.db.jobs.ofDocument workspace id⟩

/-- A docket before and after its document was written and the version asked for. -/
def Docket.Submitted (a b : Docket) : Prop :=
  ∃ version body d, b.document = some d ∧ Documents.Written version body a.document d ∧
    Queue.Asked version a.jobs b.jobs

/-- A docket before and after its document was written any number of times. -/
inductive Docket.Grown : Docket → Docket → Prop
  | refl (a : Docket) : Grown a a
  | later {a b c : Docket} : Grown a b → b.Submitted c → Grown a c

theorem Docket.Grown.trans {a b c : Docket} (ab : a.Grown b) (bc : b.Grown c) : a.Grown c := by
  induction bc with
  | refl => exact ab
  | later _ last ih => exact .later ih last

def Interference.writes (workspace id : String) : Interference → Bool
  | .submit workspace' _ id' _ _ => workspace' = workspace && id' = id
  | _ => false

/-- Whether a document may be written while a provider is at work. -/
def EmbedderTurn.writes (workspace id : String) (t : EmbedderTurn) : Bool :=
  t.meanwhile.any (·.writes workspace id)

namespace World

/-- Whether some turn of the provider that is still to come writes a document. -/
def awaitsWrite (w : World) (workspace id : String) : Bool :=
  w.usualTurn.writes workspace id || w.turns.any (·.writes workspace id)

variable {w : World} {workspace id : String}

theorem docket_submit (sound : w.Sound) (workspace base id version body : String) :
    (w.docket workspace id).Submitted
      ((w.submit workspace base id version body).2.docket workspace id) := by
  obtain ⟨d, found, written⟩ := w.db.documents.document?_put w.now workspace base id version body
  exact ⟨version, body, d, found, written,
    Queue.asked_enqueue sound.jobs_once w.now (Identifier.ofNat w.drawn) workspace base id
      version⟩

theorem docket_submit_other (sound : w.Sound) {workspace' id' : String}
    (other : ¬ (workspace' = workspace ∧ id' = id)) (base version body : String) :
    (w.submit workspace' base id' version body).2.docket workspace id =
      w.docket workspace id := by
  have jobs := Queue.ofDocument_enqueue_other sound.jobs_once other w.now
    (Identifier.ofNat w.drawn) base version
  have documents := w.db.documents.document?_put_other other w.now base version body
  rw [docket, docket, ← documents, ← jobs]
  rfl

/-- Whatever another party does, a docket changes only when it writes the document. -/
theorem docket_interfere (sound : w.Sound) (workspace id : String) (cfg : Config)
    (i : Interference) :
    (i.writes workspace id = false ∧
      (w.interfere cfg i).docket workspace id = w.docket workspace id) ∨
    (i.writes workspace id = true ∧
      (w.docket workspace id).Submitted
        ((w.interfere cfg i).docket workspace id)) := by
  cases i with
  | submit workspace' base id' version body =>
    by_cases own : workspace' = workspace ∧ id' = id
    · obtain ⟨rfl, rfl⟩ := own
      exact .inr ⟨by simp [Interference.writes],
        docket_submit sound workspace' base id' version body⟩
    · exact .inl ⟨by simpa [Interference.writes] using own,
        docket_submit_other sound own base version body⟩
  | advance | control | lock => exact .inl ⟨rfl, rfl⟩

theorem docket_interfereAll (sound : w.Sound) (workspace id : String) (cfg : Config)
    (is : List Interference) :
    (w.docket workspace id).Grown
        ((is.foldl (interfere cfg) w).docket workspace id) ∧
      (is.any (·.writes workspace id) = false →
        (is.foldl (interfere cfg) w).docket workspace id = w.docket workspace id) := by
  induction is generalizing w with
  | nil => exact ⟨.refl _, fun _ => rfl⟩
  | cons i rest ih =>
    obtain ⟨grown, same⟩ := ih ((w.interfere_meanwhile cfg i).sound sound)
    rw [List.foldl_cons, List.any_cons]
    rcases docket_interfere sound workspace id cfg i with
      ⟨elsewhere, kept⟩ | ⟨here, submitted⟩
    · rw [kept] at grown same
      exact ⟨grown, fun none_writes => same (by simpa [elsewhere] using none_writes)⟩
    · exact ⟨(Docket.Grown.later (.refl _) submitted).trans grown,
        fun none_writes => by simp [here] at none_writes⟩

theorem next_turn_mem (w : World) : w.turns.headD w.usualTurn ∈ w.usualTurn :: w.turns := by
  cases w.turns with
  | nil => exact List.mem_cons_self
  | cons t rest => exact List.mem_cons_of_mem _ List.mem_cons_self

/-- What holds when a provider begins its work, and whatever others do in its turn keeps, holds when
it has answered. -/
theorem embed_preserves {I : World → Prop} (s : Setup) (w : World) (p : Provider)
    (token : Option String) (text : String)
    (remote : ∀ peer, I { w with desk := { w.desk with peer } })
    (asked : I { w with
      turns := w.turns.drop 1, notes := w.notes ++ [.asked p.id p.model token text] })
    (keeps : ∀ v, ∀ i ∈ (w.turns.headD w.usualTurn).meanwhile, I v → I (v.interfere s.config i)) :
    I (w.embed s p token text).2 := by
  have all : ∀ (is : List Interference) (v : World),
      (∀ i ∈ is, i ∈ (w.turns.headD w.usualTurn).meanwhile) → I v →
      I (is.foldl (interfere s.config) v) := by
    intro is
    induction is with
    | nil => exact fun _ _ h => h
    | cons i rest ih =>
      intro v own h
      have first := keeps v i (own i List.mem_cons_self) h
      exact ih _ (fun j later => own j (List.mem_cons_of_mem i later)) first
  unfold embed
  split
  · exact remote _
  · exact all _ _ (fun _ member => member) asked

theorem docket_embed (sound : w.Sound) (workspace id : String) (s : Setup) (p : Provider)
    (token : Option String) (text : String) :
    (w.docket workspace id).Grown
        ((w.embed s p token text).2.docket workspace id) ∧
      (w.awaitsWrite workspace id = false →
        (w.embed s p token text).2.docket workspace id = w.docket workspace id) := by
  unfold embed
  split
  · exact ⟨.refl _, fun _ => rfl⟩
  · let asked : World := { w with
      turns := w.turns.drop 1, notes := w.notes ++ [.asked p.id p.model token text] }
    have asked_sound : asked.Sound := sound.of_db (Nat.le_refl _) rfl
    obtain ⟨grown, same⟩ := docket_interfereAll asked_sound workspace id s.config
      (w.turns.headD w.usualTurn).meanwhile
    refine ⟨grown, fun unwritten => same ?_⟩
    simp only [awaitsWrite, EmbedderTurn.writes, Bool.or_eq_false_iff] at unwritten
    cases turns : w.turns with
    | nil => exact unwritten.1
    | cons t rest =>
      have first := unwritten.2
      rw [turns, List.any_cons, Bool.or_eq_false_iff] at first
      exact first.1

end World

end IndexingPipeline
