import IndexingPipeline.Config.Reader
import IndexingPipeline.Words

/-!
# The program

Standard input holds a configuration, a line of three dashes, and commands, one a line; what
they print goes to standard output. The database lives as long as the program, and no service
can be reached from it.
-/

open IndexingPipeline

/-- The lines up to one of three dashes. -/
partial def readConfiguration (input : IO.FS.Stream) (before : String) : IO String := do
  let line ← input.getLine
  if line.isEmpty || line == "---\n" then return before
  readConfiguration input (before ++ line)

partial def serve (cfg : Config) (input : IO.FS.Stream) (w : World) : IO Unit := do
  let line ← input.getLine
  if line.isEmpty then return ()
  let w := { w with now := (← IO.monoMsNow : Nat) }
  match (Spelling.ofLine line).command? with
  | none =>
    IO.eprintln "unknown command"
    serve cfg input w
  | some command =>
    let (printed, w) := Command.run cfg w command
    for line in printed.lines do
      IO.println line
    for e in printed.error.toList do
      IO.eprintln ("Error: " ++ e.message)
    serve cfg input w

def main : IO UInt32 := do
  let input ← IO.getStdin
  match Config.read (← readConfiguration input "") with
  | .error e =>
    IO.eprintln ("Error: " ++ e.message)
    return 1
  | .ok cfg =>
    let mut env : Environment := []
    for name in cfg.environmentNames do
      if let some value ← IO.getEnv name then env := (name, value) :: env
    serve cfg input (World.initial (← IO.monoMsNow : Nat) env {})
    return 0
