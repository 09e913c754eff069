import Mathlib.Data.List.Induction
import IndexingPipeline.Proofs.Ledger
import IndexingPipeline.Proofs.Spelling
import IndexingPipeline.Proofs.Switchover

/-!
# Digests tell policies apart

The written form of a policy is read back piece by piece, so that no name, model or template can
make one policy look like another. A revision carries the digest of the policy that its run works
under from the moment it is opened, whoever else is at work. So as long as the digests of two
written forms do not collide, the digests on two revisions agree when their runs worked under the
same policy, and only then.
-/

namespace IndexingPipeline

namespace Json

theorem encode_inj {s t : List Char} : encode s = encode t ↔ s = t := by
  constructor
  · intro same
    have read := decode_encode s
    rw [same, decode_encode] at read
    exact (Option.some.inj read).symm
  · rintro rfl
    rfl

namespace Tree

@[simp] theorem ofString_inj {s t : String} : ofString s = ofString t ↔ s = t := by
  rw [ofString, ofString, text.injEq, encode_inj, String.toList_inj]

@[simp] theorem ofInt_natCast_inj {m n : Nat} : ofInt m = ofInt n ↔ m = n := by
  constructor
  · intro same
    have spelled := toString_toList m ▸ toString_toList n ▸ number.inj same
    have digits : Nat.toDigits 10 m = Nat.toDigits 10 n := by simpa using spelled
    rw [← naturalOf_toDigits m, digits, naturalOf_toDigits]
  · rintro rfl
    rfl

end Tree

end Json

namespace Policy

theorem fieldTree_inj {f g : SchemaField} : fieldTree f = fieldTree g ↔ f = g := by
  obtain ⟨name, template⟩ := f
  obtain ⟨name', template'⟩ := g
  simp [fieldTree, Json.member]

theorem modelTree_inj {m n : Option String} :
    m.elim Json.Tree.null .ofString = n.elim Json.Tree.null .ofString ↔ m = n := by
  cases m <;> cases n
  case some.some => exact Json.Tree.ofString_inj.trans (Option.some.injEq ..).symm.to_iff
  all_goals simp [Json.Tree.ofString]

theorem toTree_inj {a b : Policy} : a.toTree = b.toTree ↔ a = b := by
  obtain ⟨providerId, model, chunkSize, chunkOverlap, fields⟩ := a
  obtain ⟨providerId', model', chunkSize', chunkOverlap', fields'⟩ := b
  have list : fields.map fieldTree = fields'.map fieldTree ↔ fields = fields' :=
    List.map_inj_right fun _ _ => fieldTree_inj.mp
  simp [toTree, Json.member, modelTree_inj, list]

theorem toTree_written (p : Policy) : p.toTree.Written := by
  have model : (p.model.elim Json.Tree.null .ofString).Written := by
    cases p.model with
    | none => exact .null
    | some m => exact .ofString m
  have field : ∀ f, (fieldTree f).Written := by
    intro f
    refine .object ?_ ?_ <;> simp [Json.member, Json.Tree.Written.ofString]
  have fields : (Json.Tree.list (p.fields.map fieldTree)).Written := by
    refine .list fun t there => ?_
    obtain ⟨f, _, rfl⟩ := List.mem_map.mp there
    exact field f
  refine .object ?_ ?_ <;>
    simp [Json.member, Json.Tree.Written.ofString, Json.Tree.Written.ofInt, model, fields]

theorem compact_inj {a b : Policy} : a.toTree.compact = b.toTree.compact ↔ a = b :=
  (Json.Tree.Written.compact_inj a.toTree_written b.toTree_written).trans toTree_inj

end Policy

namespace Crew

/-- Whether a run that is under way works at a revision under a policy. -/
def Works (c : Crew) (id : String) (p : Policy) : Prop := ∃ r ∈ c.runs, r.WorksAt id p

/-- Whether a run has worked at a revision under a policy at any time. -/
def Worked (start : Crew) (turns : List Turn) (id : String) (p : Policy) : Prop :=
  ∃ earlier, earlier <+: turns ∧ (start.play earlier).Works id p

theorem works_start {c : Crew} {w : World} {job : Job} {id : String} {p : Policy}
    (works : Works ⟨w, c.runs ++ [.start job]⟩ id p) : c.Works id p := by
  obtain ⟨r, there, d, draft, facts⟩ := works
  rcases List.mem_append.mp there with old | new
  · exact ⟨r, old, d, draft, facts⟩
  · cases List.mem_singleton.mp new
    cases draft

theorem worked_of_draft {start : Crew} {turns : List Turn} {id : String} {p : Policy}
    (works : some (id, p) ∈ (start.play turns).runs.map fun r =>
      r.stage.draft?.map fun d => (d.revisionId, d.policy)) : Worked start turns id p := by
  obtain ⟨r, there, same⟩ := List.mem_map.mp works
  obtain ⟨d, draft, same⟩ := Option.map_eq_some_iff.mp same
  obtain ⟨rfl, rfl⟩ := Prod.mk.inj same
  exact ⟨turns, List.prefix_rfl, r, there, .of_draft draft⟩

theorem play_concat (c : Crew) (turns : List Turn) (t : Turn) :
    c.play (turns ++ [t]) = (c.play turns).turn t := List.foldl_concat turn c t turns

theorem worked_concat {start : Crew} {turns : List Turn} {t : Turn} {id : String} {p : Policy} :
    Worked start (turns ++ [t]) id p ↔
      Worked start turns id p ∨ ((start.play turns).turn t).Works id p := by
  simp only [Worked, List.prefix_concat_iff, or_and_right, exists_or, exists_eq_left, play_concat,
    or_comm]

theorem ledger_turn {c : Crew} {worked : String → Policy → Prop} {opened : List (String × Policy)}
    (h : Ledger c.world.db.revisions worked opened) (sound : c.world.Sound)
    (known : ∀ id p, c.Works id p → worked id p) (t : Turn) :
    ∃ opened', Ledger (c.turn t).world.db.revisions
      (fun id p => worked id p ∨ (c.turn t).Works id p) opened' := by
  -- the revisions carry what they carried, and nobody goes to work
  have kept : ∀ {next : Crew}, next.world.db.revisions.stamps = c.world.db.revisions.stamps →
      (∀ id p, next.Works id p → c.Works id p) →
      ∃ opened', Ledger next.world.db.revisions (fun id p => worked id p ∨ next.Works id p)
        opened' :=
    fun same onward => ⟨opened, h.kept same fun id p =>
      or_iff_left_of_imp fun works => known id p (onward id p works)⟩
  cases t with
  | start job => exact kept rfl fun _ _ => works_start
  | claim =>
    have same : c.world.claim.2.db.revisions = c.world.db.revisions := rfl
    simp only [turn]
    split <;> rename_i first <;> rw [first] at same
    · exact kept (congrArg Revisions.stamps same) fun _ _ works => works
    · exact kept (congrArg Revisions.stamps same) fun _ _ => works_start
  | step s place =>
    simp only [turn]
    cases here : c.runs[place]? with
    | none => exact kept rfl fun _ _ works => works
    | some r =>
      have mine := List.mem_of_getElem? here
      obtain ⟨bound, _⟩ := List.getElem?_eq_some_iff.mp here
      obtain ⟨opened', ledger⟩ :=
        h.step (s := s) sound fun id p works => known id p ⟨r, mine, works⟩
      refine ⟨opened', ledger.kept rfl fun id p => or_congr_right' fun unknown => ⟨?_, ?_⟩⟩
      · rintro ⟨x, there, works⟩
        rcases List.mem_or_eq_of_mem_set there with old | rfl
        · exact absurd (known id p ⟨x, old, works⟩) unknown
        · exact works
      · exact fun works => ⟨_, List.mem_set bound _, works⟩
  | markFailed id reason =>
    exact kept (Revisions.stamps_map (.failed _ _ _) _) fun _ _ works => works
  | failAbandoned olderThan =>
    exact kept (Revisions.stamps_map (.failed _ _ _) _) fun _ _ works => works
  | interfere cfg i =>
    exact kept (congrArg Revisions.stamps (c.world.interfere_meanwhile cfg i).revisions)
      fun _ _ works => works
  | _ => exact kept rfl fun _ _ works => works

theorem ledger (now : Int) (env : Environment) (peer : Peer) (turns : List Turn) :
    ∃ opened, Ledger ((initial now env peer).play turns).world.db.revisions
      (Worked (initial now env peer) turns) opened := by
  induction turns using List.reverseRecOn with
  | nil =>
    refine ⟨[], .empty ?_⟩
    rintro id p ⟨earlier, early, r, there, _⟩
    cases List.prefix_nil.mp early
    cases there
  | append_singleton turns t ih =>
    obtain ⟨opened, h⟩ := ih
    obtain ⟨opened', next⟩ := ledger_turn h ((initial_good now env peer).play turns).1.sound
      (fun id p works => ⟨turns, List.prefix_rfl, works⟩) t
    exact ⟨opened', play_concat _ turns t ▸ next.kept rfl fun _ _ => worked_concat⟩

end Crew

/-- Two policies have the same written form when they are the same, and only then. And in whatever
order runs, writes and repairs take turns on a database that was empty: there is exactly one policy
under which a run has worked at a revision, the revision carries its digest, and as long as the
digests of two such policies do not collide, two revisions carry the same digest exactly when their
runs worked under the same policy. -/
theorem digest_identifies :
    (∀ a b : Policy, a.toTree.compact = b.toTree.compact ↔ a = b) ∧
    ∀ (now : Int) (env : Environment) (peer : Peer) (turns : List Turn),
      let start := Crew.initial now env peer
      let revisions := (start.play turns).world.db.revisions
      (∀ a ∈ revisions, ∃! p, start.Worked turns a.id p) ∧
      (∀ a ∈ revisions, ∀ p, start.Worked turns a.id p →
        a.policyDigest = Digest.ofText p.toTree.compact) ∧
      ∀ a ∈ revisions, ∀ b ∈ revisions, ∀ p q, start.Worked turns a.id p →
        start.Worked turns b.id q →
        (Digest.ofText p.toTree.compact = Digest.ofText q.toTree.compact →
          p.toTree.compact = q.toTree.compact) →
        (a.policyDigest = b.policyDigest ↔ p = q) := by
  refine ⟨fun _ _ => Policy.compact_inj, fun now env peer turns => ?_⟩
  intro start revisions
  obtain ⟨opened, h⟩ := Crew.ledger now env peer turns
  have carries : ∀ a ∈ revisions, ∀ p, start.Worked turns a.id p → a.policyDigest = p.digest := by
    intro a row p worked
    obtain ⟨q, works, digest⟩ := h.of_row row
    rw [digest, h.unique works worked]
  refine ⟨fun a row => ?_, carries, fun a rowA b rowB p q ranA ranB apart => ?_⟩
  · obtain ⟨p, works, _⟩ := h.of_row row
    exact ⟨p, works, fun q worked => h.unique worked works⟩
  · rw [carries a rowA p ranA, carries b rowB q ranB]
    exact ⟨fun same => Policy.compact_inj.mp (apart same), fun same => congrArg Policy.digest same⟩

namespace Sample

def fieldSetup (f : SchemaField) : Setup where
  config := {
    dataPath := "kb.sqlite"
    policy := { providerId := "p", schemaFields := [f] }
    store := { url := "http://store" }
    providers := [{ id := "p", kind := .ollama, url := "http://p", model := "m" }] }
  remoteEmbedder := false
  gateway := none

/-- A field, and one whose name imitates it together with its template. -/
def plainField : SchemaField := ⟨"a", "b"⟩

def imitation : SchemaField := ⟨"a\",\"template\":\"b", ""⟩

/-- Two runs open a revision each, under policies that differ in their field. -/
def twoPolicies : List Turn :=
  [.enqueue "w" "b" "d" "v1", .enqueue "w" "b" "e" "v1", .claim, .claim] ++
    List.replicate 3 (.step (fieldSetup plainField) 0) ++
    List.replicate 3 (.step (fieldSetup imitation) 1)

def plainPolicy : Policy := ⟨"p", none, 1200, 200, [plainField]⟩

def imitating : Policy := ⟨"p", none, 1200, 200, [imitation]⟩

def blankCrew : Crew := Crew.initial 1000 [] {}

def workingCrew : Crew := blankCrew.play twoPolicies

theorem twoPolicies_drafts :
    (workingCrew.runs.map fun r => r.stage.draft?.map fun d => (d.revisionId, d.policy)) =
      [some (Identifier.ofNat 3, plainPolicy), some (Identifier.ofNat 5, imitating)] := by
  decide +kernel

theorem twoPolicies_ids : workingCrew.world.db.revisions.map (·.id) =
    [Identifier.ofNat 3, Identifier.ofNat 5] := by decide +kernel

theorem plain_apart :
    Digest.ofText plainPolicy.toTree.compact ≠ Digest.ofText imitating.toTree.compact := by
  decide +kernel

end Sample

theorem digest_identifies_sample :
    ∃ a ∈ Sample.workingCrew.world.db.revisions, ∃ b ∈ Sample.workingCrew.world.db.revisions,
      Sample.blankCrew.Worked Sample.twoPolicies a.id Sample.plainPolicy ∧
      Sample.blankCrew.Worked Sample.twoPolicies b.id Sample.imitating ∧
      Sample.plainPolicy.toTree.compact ≠ Sample.imitating.toTree.compact ∧
      a.policyDigest ≠ b.policyDigest := by
  have row : ∀ id ∈ [Identifier.ofNat 3, Identifier.ofNat 5],
      ∃ a ∈ Sample.workingCrew.world.db.revisions, a.id = id := by
    intro id member
    exact List.mem_map.mp (Sample.twoPolicies_ids ▸ member)
  obtain ⟨a, rowA, idA⟩ := row (Identifier.ofNat 3) (by simp)
  obtain ⟨b, rowB, idB⟩ := row (Identifier.ofNat 5) (by simp)
  have workedA : Sample.blankCrew.Worked Sample.twoPolicies a.id Sample.plainPolicy :=
    Crew.worked_of_draft (idA ▸ Sample.twoPolicies_drafts ▸ List.mem_cons_self)
  have workedB : Sample.blankCrew.Worked Sample.twoPolicies b.id Sample.imitating :=
    Crew.worked_of_draft (idB ▸ Sample.twoPolicies_drafts ▸
      List.mem_cons_of_mem _ List.mem_cons_self)
  have differ : Sample.plainPolicy ≠ Sample.imitating := by decide
  -- the collision is ruled out by computing both digests
  obtain ⟨_, _, identifies⟩ := digest_identifies.2 1000 [] {} Sample.twoPolicies
  have same := identifies a rowA b rowB Sample.plainPolicy Sample.imitating workedA workedB
    fun same => absurd same Sample.plain_apart
  exact ⟨a, rowA, b, rowB, workedA, workedB, mt (digest_identifies.1 _ _).mp differ,
    mt same.mp differ⟩

end IndexingPipeline
