import IndexingPipeline.Action.Report
import IndexingPipeline.Proofs.Records

/-!
# Reports are kept as they are

A report is stored as a text and comes back from it unchanged, whatever stands in its messages,
names and reasons, as long as its numbers fit their words; and every report that is read fits. A
text may say more than a report holds, or less: what is not known is passed over, and what is
missing has its default, and the report that was read is itself kept unchanged from then on.
-/

namespace IndexingPipeline

open Json (membersNamed given lookup_given sublist_given need_of_lookup part_of_lookup
  maybe_of_lookup written_given)

namespace ActionEvent

def Fits (e : ActionEvent) : Prop :=
  -(Number.twoTo 63 : Int) ≤ e.moment ∧ e.moment < Number.twoTo 63

def named (e : ActionEvent) : List (String × Json.Tree) :=
  [("at", .ofInt e.moment), ("level", .ofString e.level), ("message", .ofString e.message)] ++
    given "document_id" (e.documentId.map Json.Tree.ofString)

theorem toTree_eq (e : ActionEvent) : e.toTree = .object (membersNamed e.named) := by
  obtain ⟨moment, level, message, documentId⟩ := e
  cases documentId <;> rfl

theorem toTree_written (e : ActionEvent) : e.toTree.Written := by
  rw [toTree_eq]
  refine .named (List.forall_mem_append.mpr ⟨?_, written_given ?_⟩)
  · simp [Json.Tree.Written.ofInt, Json.Tree.Written.ofString]
  · rintro t there
    obtain ⟨id, _, rfl⟩ := Option.map_eq_some_iff.mp there
    exact .ofString id

theorem ofTree_toTree {e : ActionEvent} (fits : e.Fits) : ofTree e.toTree = some e := by
  have fields : e.toTree.fields? ["at", "level", "message", "document_id"] = some e.named := by
    rw [toTree_eq]
    refine Json.knownMembers_named (by decide) ?_
    exact (List.Sublist.refl ["at", "level", "message"]).append (sublist_given _ _)
  have moment : Json.need e.named "at" Json.Tree.integer? = some e.moment :=
    (need_of_lookup rfl _).trans (Json.Tree.integer?_ofInt fits.1 fits.2)
  have level : Json.need e.named "level" Json.Tree.text? = some e.level :=
    (need_of_lookup rfl _).trans (Json.Tree.text?_ofString _)
  have message : Json.need e.named "message" Json.Tree.text? = some e.message :=
    (need_of_lookup rfl _).trans (Json.Tree.text?_ofString _)
  have documentId : Json.maybe e.named "document_id" Json.Tree.text? = some e.documentId := by
    have there : e.named.lookup "document_id" = e.documentId.map Json.Tree.ofString :=
      lookup_given "document_id" "document_id" _
    exact maybe_of_lookup there (fun _ => by nofun) fun _ _ => Json.Tree.text?_ofString _
  simp [ofTree, fields, moment, level, message, documentId]

theorem fits_of_ofTree {t : Json.Tree} {e : ActionEvent} (h : ofTree t = some e) : e.Fits := by
  simp only [ofTree, Option.bind_eq_bind, Option.bind_eq_some_iff] at h
  obtain ⟨fields, _, moment, read, level, _, message, _, documentId, _, same⟩ := h
  cases same
  obtain ⟨u, _, read⟩ := Option.bind_eq_some_iff.mp read
  exact Json.Tree.integer?_range read

end ActionEvent

namespace FailedDocument

def named (d : FailedDocument) : List (String × Json.Tree) :=
  [("document_id", .ofString d.documentId), ("error", .ofString d.reason)]

theorem toTree_written (d : FailedDocument) : d.toTree.Written := by
  refine @Json.Tree.Written.named d.named ?_
  simp [named, Json.Tree.Written.ofString]

theorem ofTree_toTree (d : FailedDocument) : ofTree d.toTree = some d := by
  have fields : d.toTree.fields? ["document_id", "error"] = some d.named :=
    @Json.knownMembers_named ["document_id", "error"] (by decide) d.named (.refl _)
  have documentId : Json.need d.named "document_id" Json.Tree.text? = some d.documentId :=
    (need_of_lookup rfl _).trans (Json.Tree.text?_ofString _)
  have reason : Json.need d.named "error" Json.Tree.text? = some d.reason :=
    (need_of_lookup rfl _).trans (Json.Tree.text?_ofString _)
  simp [ofTree, fields, documentId, reason]

end FailedDocument

namespace RunSettings

def Fits (s : RunSettings) : Prop :=
  (∀ n ∈ s.chunkSize, n < Number.twoTo 64) ∧ ∀ n ∈ s.chunkOverlap, n < Number.twoTo 64

def named (s : RunSettings) : List (String × Json.Tree) :=
  given "provider_id" (s.providerId.map Json.Tree.ofString) ++
    (given "model" (s.model.map Json.Tree.ofString) ++
    (given "chunk_size" (s.chunkSize.map fun n : Nat => .ofInt n) ++
    given "chunk_overlap" (s.chunkOverlap.map fun n : Nat => .ofInt n)))

theorem toTree_eq (s : RunSettings) : s.toTree = .object (membersNamed s.named) := by
  obtain ⟨providerId, model, chunkSize, chunkOverlap⟩ := s
  cases providerId <;> cases model <;> cases chunkSize <;> cases chunkOverlap <;> rfl

theorem toTree_written (s : RunSettings) : s.toTree.Written := by
  have text : ∀ (x : Option String), ∀ t ∈ x.map Json.Tree.ofString, t.Written := by
    rintro x t there
    obtain ⟨a, _, rfl⟩ := Option.map_eq_some_iff.mp there
    exact .ofString a
  have size : ∀ (x : Option Nat), ∀ t ∈ x.map fun n : Nat => Json.Tree.ofInt n, t.Written := by
    rintro x t there
    obtain ⟨n, _, rfl⟩ := Option.map_eq_some_iff.mp there
    exact .ofInt n
  rw [toTree_eq]
  refine .named (List.forall_mem_append.mpr ⟨written_given (text _), ?_⟩)
  refine List.forall_mem_append.mpr ⟨written_given (text _), ?_⟩
  exact List.forall_mem_append.mpr ⟨written_given (size _), written_given (size _)⟩

theorem ofTree_toTree {s : RunSettings} (fits : s.Fits) : ofTree s.toTree = some s := by
  have fields : s.toTree.fields? ["provider_id", "model", "chunk_size", "chunk_overlap"] =
      some s.named := by
    rw [toTree_eq]
    refine Json.knownMembers_named (by decide) ?_
    simp only [named, List.map_append]
    exact (sublist_given _ _).append ((sublist_given _ _).append
      ((sublist_given _ _).append (sublist_given _ _)))
  have text : ∀ name (x : Option String), s.named.lookup name = x.map Json.Tree.ofString →
      Json.maybe s.named name Json.Tree.text? = some x := fun name x there =>
    maybe_of_lookup there (fun _ => by nofun) fun _ _ => Json.Tree.text?_ofString _
  have size : ∀ name (x : Option Nat), (∀ n ∈ x, n < Number.twoTo 64) →
      s.named.lookup name = x.map (fun n : Nat => .ofInt n) →
      Json.maybe s.named name (Json.Tree.natural? (Number.twoTo 64)) = some x :=
    fun name x fits there => maybe_of_lookup there (fun _ => by nofun)
      fun n asked => Json.Tree.natural?_ofInt (fits n asked) (Nat.le_refl _)
  have providerId := text "provider_id" s.providerId
    (by simp [named, List.lookup_append, lookup_given])
  have model := text "model" s.model
    (by simp [named, List.lookup_append, lookup_given])
  have chunkSize := size "chunk_size" s.chunkSize fits.1
    (by simp [named, List.lookup_append, lookup_given])
  have chunkOverlap := size "chunk_overlap" s.chunkOverlap fits.2
    (by simp [named, List.lookup_append, lookup_given])
  rw [ofTree, fields]
  simp [providerId, model, chunkSize, chunkOverlap]

theorem fits_of_ofTree {t : Json.Tree} {s : RunSettings} (h : ofTree t = some s) : s.Fits := by
  simp only [ofTree, Option.bind_eq_bind, Option.bind_eq_some_iff] at h
  obtain ⟨fields, _, providerId, _, model, _, chunkSize, size, chunkOverlap, overlap, same⟩ := h
  cases same
  exact ⟨Json.maybe_holds size fun _ _ => Json.Tree.natural?_lt,
    Json.maybe_holds overlap fun _ _ => Json.Tree.natural?_lt⟩

end RunSettings

namespace ActionReport

/-- All numbers of a report are words of their sizes. -/
structure Fits (r : ActionReport) : Prop where
  total : r.total < Number.twoTo 64
  processed : r.processed < Number.twoTo 64
  percent : r.percent < Number.twoTo 8
  failedCount : r.failedCount < Number.twoTo 64
  events : ∀ e ∈ r.events, e.Fits
  settings : r.settings.Fits

def names : List String :=
  ["total_documents", "processed_documents", "progress_percent", "failed_documents", "failed",
    "events", "config"]

def ofFields (fields : List (String × Json.Tree)) : Option ActionReport := do
  let count := Json.Tree.natural? (Number.twoTo 64)
  let total ← Json.part fields "total_documents" 0 count
  let processed ← Json.part fields "processed_documents" 0 count
  let percent ← Json.part fields "progress_percent" 0 (Json.Tree.natural? (Number.twoTo 8))
  let failedCount ← Json.part fields "failed_documents" 0 count
  let failed ← Json.part fields "failed" [] (Json.Tree.items? FailedDocument.ofTree)
  let events ← Json.part fields "events" [] (Json.Tree.items? ActionEvent.ofTree)
  let settings ← Json.part fields "config" {} RunSettings.ofTree
  return { total, processed, percent, failedCount, failed, events, settings }

theorem ofTree_eq (t : Json.Tree) : ofTree t = (t.fields? names).bind ofFields := rfl

def named (r : ActionReport) : List (String × Json.Tree) :=
  [("total_documents", .ofInt r.total), ("processed_documents", .ofInt r.processed),
    ("progress_percent", .ofInt r.percent), ("failed_documents", .ofInt r.failedCount),
    ("failed", .list (r.failed.map FailedDocument.toTree)),
    ("events", .list (r.events.map ActionEvent.toTree)), ("config", r.settings.toTree)]

theorem fields?_named {named : List (String × Json.Tree)} (all : named.map (·.1) = names) :
    (Json.Tree.object (membersNamed named)).fields? names = some named :=
  Json.knownMembers_named (by decide) (all ▸ .refl _)

theorem ofTree_toTree {r : ActionReport} (fits : r.Fits) : ofTree r.toTree = some r := by
  have fields : r.toTree.fields? names = some r.named :=
    @fields?_named r.named rfl
  have count : ∀ name n, n < Number.twoTo 64 → r.named.lookup name = some (.ofInt (n : Nat)) →
      Json.part r.named name 0 (Json.Tree.natural? (Number.twoTo 64)) = some n :=
    fun name n word there => (part_of_lookup there _ _).trans
      (Json.Tree.natural?_ofInt word (Nat.le_refl _))
  have total := count "total_documents" r.total fits.total rfl
  have processed := count "processed_documents" r.processed fits.processed rfl
  have failedCount := count "failed_documents" r.failedCount fits.failedCount rfl
  have percent : Json.part r.named "progress_percent" 0 (Json.Tree.natural? (Number.twoTo 8)) =
      some r.percent :=
    (part_of_lookup rfl _ _).trans (Json.Tree.natural?_ofInt fits.percent (by decide))
  have failed : Json.part r.named "failed" [] (Json.Tree.items? FailedDocument.ofTree) =
      some r.failed :=
    (part_of_lookup rfl _ _).trans (Json.Tree.items?_map fun d _ => d.ofTree_toTree)
  have events : Json.part r.named "events" [] (Json.Tree.items? ActionEvent.ofTree) =
      some r.events :=
    (part_of_lookup rfl _ _).trans
      (Json.Tree.items?_map fun e there => ActionEvent.ofTree_toTree (fits.events e there))
  have settings : Json.part r.named "config" {} RunSettings.ofTree = some r.settings :=
    (part_of_lookup rfl _ _).trans (RunSettings.ofTree_toTree fits.settings)
  rw [ofTree_eq, fields, Option.bind_some, ofFields]
  simp only [total, processed, failedCount, percent, failed, events, settings, Option.bind_eq_bind,
    Option.bind_some]
  rfl

theorem toTree_written (r : ActionReport) : r.toTree.Written := by
  refine @Json.Tree.Written.named r.named ?_
  have failed : ∀ t ∈ r.failed.map FailedDocument.toTree, t.Written := by
    intro t there
    obtain ⟨d, _, rfl⟩ := List.mem_map.mp there
    exact d.toTree_written
  have events : ∀ t ∈ r.events.map ActionEvent.toTree, t.Written := by
    intro t there
    obtain ⟨e, _, rfl⟩ := List.mem_map.mp there
    exact e.toTree_written
  simp [named, Json.Tree.Written.ofInt, Json.Tree.Written.list failed,
    Json.Tree.Written.list events, r.settings.toTree_written]

theorem fits_of_ofFields {fields : List (String × Json.Tree)} {r : ActionReport}
    (h : ofFields fields = some r) : r.Fits := by
  simp only [ofFields, Option.bind_eq_bind, Option.bind_eq_some_iff] at h
  obtain ⟨total, readTotal, processed, readProcessed, percent, readPercent, failedCount,
    readFailed, failed, _, events, readEvents, settings, readSettings, same⟩ := h
  cases same
  have word : ∀ {bound n : Nat} {name : String}, 0 < bound →
      Json.part fields name 0 (Json.Tree.natural? bound) = some n → n < bound :=
    fun {bound _ _} positive read =>
      Json.part_holds (P := (· < bound)) read positive fun _ => Json.Tree.natural?_lt
  refine ⟨word (by decide) readTotal, word (by decide) readProcessed,
    word (by decide) readPercent, word (by decide) readFailed, ?_, ?_⟩
  · refine Json.part_holds (P := fun es => ∀ e ∈ es, e.Fits) readEvents (by simp) ?_
    intro t read e there
    obtain ⟨u, read⟩ := Json.Tree.mem_items? read there
    exact ActionEvent.fits_of_ofTree read
  · refine Json.part_holds readSettings ⟨?_, ?_⟩ fun _ => RunSettings.fits_of_ofTree
    · rintro _ ⟨⟩
    · rintro _ ⟨⟩

theorem read?_compact {r : ActionReport} (fits : r.Fits) : read? r.compact = some r := by
  have deep := r.toTree_written.readDeep?_render
  rw [read?, compact, Json.Tree.compact, String.toList_ofList, deep]
  exact ofTree_toTree fits

/-- The known parts of a text, each as it stands there or as it is written by default. -/
def completed (fields : List (String × Json.Tree)) : List (String × Json.Tree) :=
  named {} |>.map fun (name, usual) => (name, (fields.lookup name).getD usual)

theorem part_completed {fields : List (String × Json.Tree)} {name : String} {usual : Json.Tree}
    {fallback : α} {read : Json.Tree → Option α}
    (there : (completed fields).lookup name = some ((fields.lookup name).getD usual))
    (missing : read usual = some fallback) :
    Json.part (completed fields) name fallback read = Json.part fields name fallback read := by
  rw [part_of_lookup there]
  unfold Json.part
  cases fields.lookup name with
  | none => exact missing
  | some t => rfl

theorem ofFields_completed (fields : List (String × Json.Tree)) :
    ofFields (completed fields) = ofFields fields := by
  have count : ∀ name bound, 0 < bound → bound ≤ Number.twoTo 64 →
      (completed fields).lookup name = some ((fields.lookup name).getD (.ofInt (0 : Nat))) →
      Json.part (completed fields) name 0 (Json.Tree.natural? bound) =
        Json.part fields name 0 (Json.Tree.natural? bound) :=
    fun name bound positive word there =>
      part_completed there (Json.Tree.natural?_ofInt positive word)
  have total := count "total_documents" (Number.twoTo 64) (by decide) (by decide) rfl
  have processed := count "processed_documents" (Number.twoTo 64) (by decide) (by decide) rfl
  have percent := count "progress_percent" (Number.twoTo 8) (by decide) (by decide) rfl
  have failedCount := count "failed_documents" (Number.twoTo 64) (by decide) (by decide) rfl
  have failed : Json.part (completed fields) "failed" []
      (Json.Tree.items? FailedDocument.ofTree) = _ := part_completed rfl rfl
  have events : Json.part (completed fields) "events" []
      (Json.Tree.items? ActionEvent.ofTree) = _ := part_completed rfl rfl
  have settings : Json.part (completed fields) "config" {} RunSettings.ofTree = _ :=
    part_completed rfl (RunSettings.ofTree_toTree ⟨by rintro _ ⟨⟩, by rintro _ ⟨⟩⟩)
  simp only [ofFields, total, processed, percent, failedCount, failed, events, settings]

end ActionReport

/-- Whatever a report holds, the text that is written for it is read as the same report. And
whatever text is read as a report, that report fits its words, is the same when it has been
written and read again, and is what the known parts of the text alone make it, with the missing
ones as they are written by default. -/
theorem report_round_trip :
    (∀ r : ActionReport, r.Fits → ActionReport.read? r.compact = some r) ∧
    ∀ (s : String) (r : ActionReport), ActionReport.read? s = some r →
      r.Fits ∧ ActionReport.read? r.compact = some r ∧
      ∃ t fields, Json.Tree.readDeep? s.toList = some t ∧
        t.fields? ActionReport.names = some fields ∧
        ActionReport.ofTree (.object (membersNamed (ActionReport.completed fields))) =
          some r := by
  refine ⟨fun r fits => ActionReport.read?_compact fits, ?_⟩
  intro s r read
  obtain ⟨t, deep, read⟩ := Option.bind_eq_some_iff.mp read
  rw [ActionReport.ofTree_eq] at read
  obtain ⟨fields, known, read⟩ := Option.bind_eq_some_iff.mp read
  have fits := ActionReport.fits_of_ofFields read
  refine ⟨fits, ActionReport.read?_compact fits, t, fields, deep, known, ?_⟩
  rw [ActionReport.ofTree_eq, ActionReport.fields?_named rfl, Option.bind_some,
    ActionReport.ofFields_completed, read]

namespace Sample

/-- A report with the largest numbers, quotes, backslashes, controls and a part of the settings. -/
def awkward : ActionReport where
  total := 18446744073709551615
  percent := 255
  failed := [⟨"d\"\\", "\n\x00"⟩]
  events := [⟨-9223372036854775808, "\x7b\"at\":1\x7d", "é\x1f", none⟩, ⟨0, "", "", some ","⟩]
  settings := { model := some "null", chunkSize := some 0 }

/-- A text with a part that is not known, an escape, and most parts missing. -/
def sparse : String :=
  "\x7b\"more\":[[\x7b\x7d]], \"events\":[\x7b\"at\":-1,\"level\":\"\\u00e9\"," ++
    "\"message\":\"\",\"x\":0.5\x7d]\x7d"

end Sample

theorem report_round_trip_sample :
    (Sample.awkward.Fits ∧ ActionReport.read? Sample.awkward.compact = some Sample.awkward) ∧
    let r : ActionReport := { events := [⟨-1, "é", "", none⟩] }
    ActionReport.read? Sample.sparse = some r ∧ r.Fits ∧
      ActionReport.read? r.compact = some r := by
  have fits : Sample.awkward.Fits :=
    ⟨by decide, by decide, by decide, by decide, by simp [Sample.awkward, ActionEvent.Fits],
      by simp [Sample.awkward, RunSettings.Fits]⟩
  refine ⟨⟨fits, report_round_trip.1 _ fits⟩, ?_⟩
  intro r
  have read : ActionReport.read? Sample.sparse = some r := by decide +kernel
  obtain ⟨fits, again, _⟩ := report_round_trip.2 _ _ read
  exact ⟨read, fits, again⟩

end IndexingPipeline
