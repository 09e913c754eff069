import Mathlib.Algebra.GroupWithZero.Nat
import IndexingPipeline.Proofs.Calls
import IndexingPipeline.Proofs.Chunks
import IndexingPipeline.Proofs.Indifference
import IndexingPipeline.Proofs.Outcome

/-!
# What a revision is said to cost

A revision costs what its provider says of all its chunks together, or the estimate of all its
chunks when the provider leaves one out. The sum is the exact one as long as it fits into the row.
Whether the run comes to its end, and how, does not depend on it.
-/

namespace IndexingPipeline

/-! ## Sums -/

theorem totalUsage_none {usages : List (Option Nat)} (missing : none ∈ usages) :
    Run.totalUsage usages = none := by
  have stays : ∀ xs : List (Option Nat),
      xs.foldl (fun sum usage => do return wrapU64 ((← sum) + (← usage))) none = none := by
    intro xs
    induction xs with
    | nil => rfl
    | cons x rest ih => exact ih
  unfold Run.totalUsage
  generalize some 0 = start
  induction usages generalizing start with
  | nil => cases missing
  | cons x rest ih =>
    rw [List.foldl_cons]
    rcases List.mem_cons.mp missing with rfl | later
    · have nothing : (do return wrapU64 ((← start) + (← none))) = (none : Option Nat) := by
        cases start <;> rfl
      rw [nothing]
      exact stays rest
    · exact ih later _

theorem totalUsage_some (reported : List Nat) :
    Run.totalUsage (reported.map some) = some (wrapU64 reported.sum) := by
  have from_start : ∀ (xs : List Nat) (n : Nat),
      (xs.map some).foldl (fun sum usage => do return wrapU64 ((← sum) + (← usage)))
        (some (wrapU64 n)) = some (wrapU64 (n + xs.sum)) := by
    intro xs
    induction xs with
    | nil => exact fun n => rfl
    | cons x rest ih =>
      intro n
      have first : (do return wrapU64 ((← some (wrapU64 n)) + (← some x))) =
          some (wrapU64 (n + x)) := congrArg some (Nat.mod_add_mod _ _ _)
      rw [List.map_cons, List.foldl_cons, first, ih, List.sum_cons, Nat.add_assoc]
  exact (from_start reported 0).trans (by rw [Nat.zero_add])

/-- A text's estimate: a token for every four characters, a started one counting. -/
def Chunk.estimate (c : Chunk) : Nat := (c.text.length + 3) / 4

/-- The chunks of a set are measured and estimated by their texts. -/
def ChunkSet.Estimated (set : ChunkSet) : Prop :=
  ∀ c ∈ set.chunks, c.charCount = c.text.length ∧ c.tokenCount = c.estimate

theorem ChunkSet.Estimated.total {set : ChunkSet} (h : set.Estimated) :
    set.totalTokens = (set.chunks.map Chunk.estimate).sum := by
  have from_start : ∀ (xs : List Chunk), (∀ c ∈ xs, c.tokenCount = c.estimate) → ∀ n : Int,
      xs.foldl (fun n c => n + c.tokenCount) n = n + (xs.map Chunk.estimate).sum := by
    intro xs
    induction xs with
    | nil => simp
    | cons c rest ih =>
      intro tokens n
      rw [List.foldl_cons, ih fun d later => tokens d (List.mem_cons_of_mem c later),
        tokens c List.mem_cons_self, List.map_cons, List.sum_cons]
      omega
  exact (from_start set.chunks (fun c member => (h c member).2) 0).trans (Int.zero_add _)

theorem Chunk.estimated_ofSpans {documentId : String} {spans : List Span} {supply ordinal : Nat}
    {c : Chunk} (member : c ∈ ofSpans documentId supply ordinal spans) :
    c.charCount = c.text.length ∧ c.tokenCount = c.estimate := by
  induction spans generalizing supply ordinal with
  | nil => cases member
  | cons span rest ih =>
    rcases List.mem_cons.mp member with rfl | later
    · simp [ofSpan, estimate, tokensOf, charsPerToken]
    · exact ih later

theorem ChunkSet.build_estimated {documentId revisionId text : String} {window : Window}
    {supply next : Nat} {set : ChunkSet}
    (built : ChunkSet.build documentId revisionId text window supply = (set, next)) :
    set.Estimated := by
  intro c member
  rw [(ChunkSet.build_chunks built).1] at member
  exact Chunk.estimated_ofSpans member

/-! ## Bills -/

/-- What was answered of the cost of a vector, if anything was. -/
def Call.usage? : Call → Option (Option Nat)
  | .embed _ _ _ (.ok e) => some e.usage
  | _ => none

def reports (log : List Call) : List (Option Nat) := log.filterMap Call.usage?

/-- What a revision is written down to cost. -/
def bill (set : ChunkSet) (usages : List (Option Nat)) : Int :=
  (Run.totalUsage usages).elim set.totalTokens fun total => wrap64 total

/-- The row of a revision says which chunks it has, which are stored, and what it costs. -/
def World.Bills (w : World) (id : String) (set : ChunkSet) (cost : Int) : Prop :=
  set.Estimated ∧ (∃ moment, ⟨set, moment⟩ ∈ w.db.chunkSets) ∧
    ∃ a, w.db.revisions.revision? id = some a ∧ a.chunkSetId = some set.id ∧ a.totalTokens = cost

/-- What is written down of the cost of a revision when a run comes to a stage. -/
def Stage.Billed (w : World) (log : List Call) : Stage → Prop
  | .looking | .locking _ | .opening _ => reports log = []
  | .deferring (.completed _ _ _ _) _ _ => False
  | .chunking d => d.usages = reports log ∧ reports log = []
  | .sizing d =>
    d.usages = reports log ∧ reports log = [] ∧ d.set.Estimated ∧
      ∃ moment, ⟨d.set, moment⟩ ∈ w.db.chunkSets
  | .admitting d | .authorizing d =>
    d.usages = reports log ∧ reports log = [] ∧ w.Bills d.revisionId d.set d.set.totalTokens
  | .embedding d left =>
    d.usages = reports log ∧ (reports log).length + left.length = d.set.chunks.length ∧
      w.Bills d.revisionId d.set d.set.totalTokens
  | .ensuring d | .writing d | .accounting d =>
    d.usages = reports log ∧ (reports log).length = d.set.chunks.length ∧
      w.Bills d.revisionId d.set d.set.totalTokens
  | .switching d | .cleaning d _ =>
    (reports log).length = d.set.chunks.length ∧
      w.Bills d.revisionId d.set (bill d.set (reports log))
  | .refreshing (.completed id _ n _) | .releasing (.completed id _ n _)
  | .finished (.completed id _ n _) =>
    (reports log).length = n ∧
      ∃ set, set.chunks.length = n ∧ w.Bills id set (bill set (reports log))
  | _ => True

namespace World.Bills

variable {w w' : World} {id : String} {set : ChunkSet} {cost : Int}

theorem kept (h : w.Bills id set cost) (revisions : w'.db.revisions = w.db.revisions)
    (sets : w'.db.chunkSets = w.db.chunkSets) : w'.Bills id set cost := by
  unfold World.Bills
  rw [revisions, sets]
  exact h

theorem updated (h : w.Bills id set cost) {c : RevisionChange} {cost' : Int}
    (same : c.chunkSetId = none) (total : c.totalTokens.getD cost = cost')
    (revisions : w'.db.revisions = w.db.revisions.update id c)
    (sets : w'.db.chunkSets = w.db.chunkSets) : w'.Bills id set cost' := by
  obtain ⟨estimated, stored, a, found, own, costs⟩ := h
  refine ⟨estimated, sets ▸ stored, a.change c, ?_, ?_, ?_⟩
  · rw [revisions]
    exact Revisions.revision?_update found c
  · simp only [Revision.change, same, Option.none_or, own]
  · rw [← total, ← costs]
    rfl

end World.Bills

namespace Run

variable {s : Setup} {r r' : Run} {w w' : World} {log : List Call}

/-- Only the answer with a vector says what it cost. -/
theorem reports_quiet (log : List Call)
    (other : ∀ d c left, r.stage ≠ .embedding d (c :: left)) :
    reports (log ++ (call? s r w).toList) = reports log := by
  have silent : reports (call? s r w).toList = [] := by
    obtain ⟨job, holder, stage⟩ := r
    cases stage with
    | authorizing d =>
      unfold call?
      simp only
      split <;> rfl
    | embedding d left =>
      cases left with
      | nil => rfl
      | cons c left => exact absurd rfl (other d c left)
    | writing d =>
      unfold call?
      simp only
      split <;> rfl
    | _ => rfl
  unfold reports at silent ⊢
  rw [List.filterMap_append, silent, List.append_nil]

theorem Move.billed (m : Move s r w r' w') (drafted : r.Drafted w)
    (h : r.stage.Billed w log) : r'.stage.Billed w' (log ++ (call? s r w).toList) := by
  have quiet := reports_quiet (s := s) (r := r) (w := w) log
  have row := drafted.row
  have revisions := m.revisions_kept
  have sets := m.chunkSets_kept
  cases m with
  | opened =>
    simp only [Stage.Billed, quiet (by simp)]
    exact ⟨h.symm, h⟩
  | chunked d doc set drawn found built =>
    obtain ⟨usages, nothing⟩ := h
    simp only [Stage.Billed, quiet (by simp)]
    exact ⟨usages, nothing, ChunkSet.build_estimated built, w.now, by simp⟩
  | sized d =>
    obtain ⟨usages, nothing, estimated, stored⟩ := h
    obtain ⟨a, found, _⟩ := row d rfl
    simp only [Stage.Billed, quiet (by simp)]
    exact ⟨usages, nothing, estimated, stored, _, Revisions.revision?_update found _, rfl, rfl⟩
  | admitted d =>
    obtain ⟨usages, nothing, bills⟩ := h
    simp only [Stage.Billed, quiet (by simp)]
    exact ⟨usages, nothing, bills⟩
  | authorized d =>
    obtain ⟨usages, nothing, bills⟩ := h
    simp only [Stage.Billed, quiet (by simp), nothing, List.length_nil, Nat.zero_add]
    exact ⟨usages.trans nothing, trivial, bills⟩
  | embeddedAll d =>
    simp only [Stage.Billed, quiet (by simp)]
    exact h
  | kept d c left e answer =>
    obtain ⟨usages, count, bills⟩ := h
    have reported : reports (log ++ [Call.embed d.provider d.token c.text (.ok e)]) =
        reports log ++ [e.usage] := List.filterMap_append
    simp only [call?, answer, Option.toList_some, Stage.Billed, reported]
    refine ⟨by rw [usages], ?_, bills.kept (revisions ?_) (sets ?_)⟩
    · simp only [List.length_append, List.length_cons, List.length_nil] at count ⊢
      omega
    · simp [Stage.writes]
    · simp [Stage.writes]
  | ensured | written =>
    obtain ⟨usages, count, bills⟩ := h
    simp only [Stage.Billed, quiet (by simp)]
    refine ⟨usages, count, bills.kept (revisions ?_) (sets ?_)⟩ <;> simp [Stage.writes]
  | unaccounted d missing =>
    obtain ⟨usages, count, bills⟩ := h
    have estimate : bill d.set (reports log) = d.set.totalTokens := by
      rw [bill, ← usages, missing]
      rfl
    simp only [Stage.Billed, quiet (by simp), estimate]
    exact ⟨count, bills⟩
  | accounted d total all =>
    obtain ⟨usages, count, bills⟩ := h
    have sum : bill d.set (reports log) = wrap64 total := by
      rw [bill, ← usages, all, Option.elim_some]
    simp only [Stage.Billed, quiet (by simp), sum]
    exact ⟨count, bills.updated (c := { totalTokens := some (wrap64 total) }) rfl
      (Option.getD_some ..) rfl rfl⟩
  | switched d =>
    obtain ⟨count, bills⟩ := h
    simp only [Stage.Billed, quiet (by simp)]
    exact ⟨count, bills.updated
      (c := { status := some .ready, finishedAt := some w.now }) rfl rfl rfl rfl⟩
  | cleaned d previous =>
    obtain ⟨count, bills⟩ := h
    simp only [Stage.Billed, quiet (by simp)]
    refine ⟨count, d.set, rfl, bills.kept (revisions ?_) (sets ?_)⟩ <;> simp [Stage.writes]
  | @refreshed _ holder _ outcome =>
    cases holder <;> cases outcome <;>
      simp only [Option.isSome, Bool.false_eq_true, if_true, if_false, Stage.Billed,
        quiet (by simp)]
    all_goals exact h
  | released _ outcome | unlocked outcome =>
    cases outcome <;> simp only [Stage.Billed, quiet (by simp)]
    all_goals exact h
  | deferred outcome =>
    cases outcome with
    | completed => exact h.elim
    | _ => exact trivial
  | free | watched | ended | locked =>
    simp only [Stage.Billed, quiet (by simp)]
    exact h
  | _ => exact trivial

theorem calls_billed (s : Setup) {w : World} (sound : w.Sound) (job : Job) :
    (complete s (.start job) w).1.stage.Billed (complete s (.start job) w).2
      (calls s (.start job) w) := by
  have holds := calls_keep (s := s)
    (I := fun r v log => (v.Sound ∧ r.Known v ∧ r.Drafted v) ∧ r.stage.Billed v log)
    (by
      rintro r v r' v' log ⟨⟨sound, known, drafted⟩, billed⟩ m
      exact ⟨⟨m.sound sound known, m.known known, m.drafted sound drafted⟩,
        m.billed drafted billed⟩)
    (.start job) w [] ⟨⟨sound, .start job w, .start job w⟩, rfl⟩
  exact holds.2

end Run

/-- A sum is written down as it is if and only if it fits into the row. -/
theorem wrap64_natural (n : Nat) : wrap64 n = n ↔ n < Number.twoTo 63 := by
  have size : Number.twoTo 64 = 18446744073709551616 := by decide
  have half : Number.twoTo 63 = 9223372036854775808 := by decide
  unfold wrap64
  rw [size, half, Int.bmod_def]
  omega

theorem wrap64_wrapU64 (n : Nat) : wrap64 (wrapU64 n) = wrap64 n := by
  unfold wrap64 wrapU64
  rw [Int.natCast_emod]
  exact Int.emod_bmod ..

/-- A revision that is switched in costs the sum of what its provider says of each chunk, the exact
one if and only if that fits into the row, and where the provider leaves a chunk out the estimate of
all chunks, which is never negative. Whatever is said of the cost, the outcome is the same, and so
is all that the job leaves behind but the cost. -/
theorem process_accounts (s : Setup) (w : World) (job : Job) :
    (w.Sound → ∀ id previous n cleaned,
      (w.process s job).1 = some (.completed id previous n cleaned) →
      let usages := reports (Run.calls s (.start job) w)
      let db := (w.process s job).2.db
      usages.length = n ∧ ∃ a set moment, db.revisions.revision? id = some a ∧
        a.chunkSetId = some set.id ∧ ⟨set, moment⟩ ∈ db.chunkSets ∧ set.chunks.length = n ∧
        (∀ c ∈ set.chunks, c.charCount = c.text.length) ∧
        (∀ reported : List Nat, usages = reported.map some → a.totalTokens = wrap64 reported.sum ∧
          (a.totalTokens = reported.sum ↔ reported.sum < Number.twoTo 63)) ∧
        (none ∈ usages →
          a.totalTokens = (set.chunks.map Chunk.estimate).sum)) ∧
    ∀ v, w.Alike v → (v.process s job).1 = (w.process s job).1 ∧
      (w.process s job).2.Alike (v.process s job).2 := by
  refine ⟨?_, fun v alike => w.process_alike s alike job⟩
  intro sound id previous n cleaned completed usages db
  have billed := Run.calls_billed s sound job
  rw [World.process_finished completed] at billed
  obtain ⟨count, set, chunks, estimated, ⟨moment, stored⟩, a, found, own, cost⟩ := billed
  rw [← World.process_world] at stored found
  refine ⟨count, a, set, moment, found, own, stored, chunks, fun c member =>
    (estimated c member).1, ?_, ?_⟩
  · intro reported all
    have total : a.totalTokens = wrap64 reported.sum := by
      have sum : Run.totalUsage usages = some (wrapU64 reported.sum) := by
        rw [all, totalUsage_some]
      rw [cost, bill, sum, Option.elim_some, wrap64_wrapU64]
    rw [total]
    exact ⟨rfl, wrap64_natural reported.sum⟩
  · intro missing
    have total : a.totalTokens = set.totalTokens := by
      rw [cost, bill, totalUsage_none missing, Option.elim_none]
    exact total.trans estimated.total

namespace Sample

/-- A provider that says the same of the cost of every vector. -/
def priced (usage : Option Nat) : World :=
  { world with usualTurn := ⟨[], fun _ => .ok ⟨[1, 2], usage, none⟩⟩ }

theorem priced_sound (usage : Option Nat) : (priced usage).Sound :=
  ((World.claim_around _).sound stored_sound).of_tables (Nat.le_refl _) rfl rfl rfl rfl

theorem priced_alike (usage usage' : Option Nat) : (priced usage).Alike (priced usage') where
  rest := rfl
  odds :=
    { peer := ⟨.none, rfl⟩
      turns := .nil
      usualTurn := ⟨rfl, fun _ => rfl⟩
      revisions := rfl }

theorem process_priced :
    ((priced none).process setup job).1 =
      some (.completed (Identifier.ofNat 2) none 1 (some 0)) := by
  have ended : (Run.steps setup 16 (.start job) (priced none)).1.stage.isOver = true := by
    decide +kernel
  unfold World.process
  rw [Run.complete_eq_steps 16 ended]
  decide +kernel

end Sample

/-- Eleven characters are estimated as three tokens when nothing is said of their cost; whatever is
said of it, the job is completed. -/
theorem process_accounts_sample :
    (∃ a, ((Sample.priced none).process Sample.setup Sample.job).2.db.revisions.revision?
        (Identifier.ofNat 2) = some a) ∧
      ∀ usage, ((Sample.priced usage).process Sample.setup Sample.job).1 =
        some (.completed (Identifier.ofNat 2) none 1 (some 0)) := by
  have accounts := process_accounts Sample.setup (Sample.priced none) Sample.job
  refine ⟨?_, ?_⟩
  · obtain ⟨_, a, _, _, found, _⟩ :=
      accounts.1 (Sample.priced_sound none) _ _ _ _ Sample.process_priced
    exact ⟨a, found⟩
  · intro usage
    exact (accounts.2 _ (Sample.priced_alike none usage)).1.trans Sample.process_priced

/-- The one chunk of a job that is completed costs more than the row holds. -/
theorem account_wraps :
    let w := Sample.priced (some (Number.twoTo 63))
    (w.process Sample.setup Sample.job).1 =
        some (.completed (Identifier.ofNat 2) none 1 (some 0)) ∧
      (w.process Sample.setup Sample.job).2.db.revisions.map (·.totalTokens) =
        [-9223372036854775808] := by
  have ended : (Run.steps Sample.setup 16 (.start Sample.job)
      (Sample.priced (some (Number.twoTo 63)))).1.stage.isOver = true := by decide +kernel
  constructor
  · rw [(World.process_alike Sample.setup (Sample.priced_alike none _) Sample.job).1]
    exact Sample.process_priced
  · rw [World.process_world, Run.complete_eq_steps 16 ended]
    decide +kernel

end IndexingPipeline
