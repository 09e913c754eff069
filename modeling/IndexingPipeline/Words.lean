import IndexingPipeline.Command
import IndexingPipeline.Text.Blank

/-!
# Commands in words

A command is spelled by words in order and by options, which may stand anywhere after the first
word: a name behind two dashes with the word that follows it, or, for a mark, alone. The words
that name a command come first, what it is about behind them. The words behind a document that
is put are its body.
-/

namespace IndexingPipeline

structure Spelling where
  words : List String := []
  options : List (String × String) := []
  marks : List String := []
  deriving DecidableEq, Repr

namespace Spelling

def markNames : List String := ["--once", "--reindex"]

/-- Take the words of a spelling apart. An option at the end lacks its word, and is a word
itself. -/
def ofWords : List String → Spelling
  | [] => {}
  | w :: rest =>
    if w ∈ markNames then
      let s := ofWords rest
      { s with marks := w :: s.marks }
    else
      match rest with
      | value :: others =>
        if w.startsWith "--" then
          let s := ofWords others
          { s with options := (w, value) :: s.options }
        else
          let s := ofWords (value :: others)
          { s with words := w :: s.words }
      | [] => { words := [w] }
termination_by ws => ws.length

def ofLine (line : String) : Spelling :=
  ofWords (((line.split Text.isBlank).toList.map (·.toString)).filter (! ·.isEmpty))

def option? (s : Spelling) (name : String) : Option String := s.options.lookup name

/-- The settings of a run that the options ask for. -/
def settings (s : Spelling) : RunSettings :=
  { providerId := s.option? "--provider"
    model := s.option? "--model"
    chunkSize := (s.option? "--chunk-size").bind String.toNat?
    chunkOverlap := (s.option? "--chunk-overlap").bind String.toNat? }

def limit (s : Spelling) : Int := ((s.option? "--limit").bind String.toInt?).getD 20

def command? (s : Spelling) : Option Command :=
  match s.words with
  | "doc" :: "put" :: workspace :: base :: document :: body =>
    some (.put workspace base document (s.option? "--version") "-"
      (if body.isEmpty then none else some (" ".intercalate body)))
  | ["enqueue", workspace, base, document] =>
    some (.enqueue workspace base document (s.option? "--version"))
  | ["worker"] => some .work
  | ["jobs"] =>
    some (.jobs (s.option? "--workspace") (s.option? "--base") (s.option? "--status") s.limit)
  | ["action", "start", workspace, base] =>
    some (.start workspace base s.settings ("--reindex" ∈ s.marks))
  | ["action", "show", workspace, base] => some (.action workspace base)
  | ["action", "pause", id] => some (.control id .pause)
  | ["action", "resume", id] => some (.control id .resume)
  | ["action", "cancel", id] => some (.control id .cancel)
  | ["revision", "show", workspace, document] => some (.revisions workspace document)
  | ["sweep"] => some .sweep
  | _ => none

end Spelling

end IndexingPipeline
