import NoizuMcp.Sync.Paused

/-!
# Cursors that the source no longer serves

`source_changes` refuses a cursor from before the changes it retains, and `apply_changes` a
page that does not follow on what was consumed, both with `resnapshot_required`. The worker has
no branch for that code: only an error that refuses access pauses the binding. The pull ends with
the error, the checkpoint keeps its cursor, and `pull_once/1` goes by the checkpoint alone: it
sends the same cursor again, and takes no snapshot, for as long as a cursor is stored
(`expired_cursor_stays`). A snapshot is taken when
the host asks for one with `snapshot/1`, and the cursor goes when one is accepted.
-/

set_option autoImplicit false

namespace NoizuMcp.Sync

open Foundation.Tx Foundation.Runs

variable {b : Binding} {c : Cache} {cursor : Cursor} {setup : Setup} {world world' : World}

namespace Expiring

def position : Cursor := .sync "b1" 0

def note : Mutation := ⟨.obj [("id", .str "a")], .obj [], false⟩

/-- The third change of the note, the only one that the source still has. -/
def third : Request where
  operationId := some "o3"
  key := some note.key
  operation := some .update
  precondition := .revision (some "r2")
  value := some note.payload
  relation := some "notes"

/-- The cache stands at the start of the feed, and the source has dropped two changes. -/
def behind : World where
  cache := { checkpoint := some { sourceCursor := some position, status := .ready } }
  source := Source.mutated { counter := 2, retainedAfter := 2 } note "o3" third "r3"
  known := ["o3", "r3"]

/-- Worker 0 has asked for the changes. -/
def asked : World := behind.setStage 0 (.pulling position)

def stages (steps : List Step) : Option (Stage × Option Cursor) :=
  (run (World.next Pausing.notes) behind steps).map fun last =>
    (last.1.workers 0, last.1.cache.checkpoint.bind Checkpoint.sourceCursor)

end Expiring

end NoizuMcp.Sync
