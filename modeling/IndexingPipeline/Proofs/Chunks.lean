import IndexingPipeline.Chunk.Basic
import IndexingPipeline.Proofs.Supply

/-!
# The chunks of a set

A chunk set has one chunk for each span of its text, in order and numbered from zero. The
identifiers of its chunks and vectors, and its own behind them, are drawn one after the other:
they are all different, and none was drawn before.
-/

namespace IndexingPipeline

open Identifier (Ahead ahead_ofNat ofNat_inj)

namespace Chunk

theorem ordinals_ofSpans (documentId : String) (spans : List Span) (supply ordinal : Nat) :
    (ofSpans documentId supply ordinal spans).map (·.ordinal) =
      (List.range' ordinal spans.length).map Int.ofNat := by
  induction spans generalizing supply ordinal with
  | nil => rfl
  | cons span rest ih => simp [ofSpans, ofSpan, ih, List.range'_succ]

theorem length_ofSpans (documentId : String) (spans : List Span) (supply ordinal : Nat) :
    (ofSpans documentId supply ordinal spans).length = spans.length := by
  induction spans generalizing supply ordinal with
  | nil => rfl
  | cons span rest ih => simp [ofSpans, ih]

/-- The vectors of chunks are drawn from the supply and up to what is left over. -/
theorem vectorId_ofSpans {documentId : String} {spans : List Span} {supply ordinal : Nat}
    {c : Chunk} (member : c ∈ ofSpans documentId supply ordinal spans) :
    ∃ n, supply ≤ n ∧ n < supply + 2 * spans.length ∧ c.vectorId = Identifier.ofNat n := by
  induction spans generalizing supply ordinal with
  | nil => cases member
  | cons span rest ih =>
    rcases List.mem_cons.mp member with rfl | later
    · exact ⟨supply + 1, by omega, by simp only [List.length_cons]; omega, rfl⟩
    · obtain ⟨n, low, high, same⟩ := ih later
      exact ⟨n, by omega, by simp only [List.length_cons]; omega, same⟩

theorem vectorIds_nodup (documentId : String) (spans : List Span) (supply ordinal : Nat) :
    ((ofSpans documentId supply ordinal spans).map (·.vectorId)).Nodup := by
  induction spans generalizing supply ordinal with
  | nil => exact List.nodup_nil
  | cons span rest ih =>
    simp only [ofSpans, List.map_cons, List.nodup_cons]
    refine ⟨?_, ih (supply + 2) (ordinal + 1)⟩
    intro again
    obtain ⟨c, member, same⟩ := List.mem_map.mp again
    obtain ⟨n, low, _, drawn⟩ := vectorId_ofSpans member
    rw [drawn] at same
    have equal : n = supply + 1 := ofNat_inj.mp same
    omega

end Chunk

namespace ChunkSet

variable {documentId revisionId text : String} {window : Window} {supply next : Nat}
  {set : ChunkSet} (built : build documentId revisionId text window supply = (set, next))
include built

theorem build_chunks :
    set.chunks = Chunk.ofSpans documentId supply 0 (split text window) ∧
      set.id = Identifier.ofNat (supply + 2 * (split text window).length) ∧
      next = supply + 2 * (split text window).length + 1 := by
  simp only [build, Prod.mk.injEq] at built
  obtain ⟨rfl, rfl⟩ := built
  exact ⟨rfl, rfl, rfl⟩

/-- What a chunk set is identified by was not drawn before it was built, and is drawn after. -/
theorem build_drawn :
    Ahead supply set.id ∧ ¬ Ahead next set.id ∧
      ∀ c ∈ set.chunks, Ahead supply c.vectorId ∧ ¬ Ahead next c.vectorId := by
  obtain ⟨chunks, id, rfl⟩ := build_chunks built
  refine ⟨?_, ?_, ?_⟩
  · rw [id, ahead_ofNat]
    omega
  · rw [id, ahead_ofNat]
    omega
  · intro c member
    rw [chunks] at member
    obtain ⟨n, low, high, same⟩ := Chunk.vectorId_ofSpans member
    rw [same, ahead_ofNat, ahead_ofNat]
    omega

theorem build_nodup : (set.chunks.map (·.vectorId)).Nodup := by
  rw [(build_chunks built).1]
  exact Chunk.vectorIds_nodup _ _ _ _

end ChunkSet

end IndexingPipeline
