import Hush.Run.Discover
import Hush.Run.File

/-!
# Commenting a directory

The discovered files are visited one after the other, each on the system as the visits before it
left it. A visit that fails is recorded and the run goes on. A run is written once for all systems
that files can be found and visited on, and a file system of the kind described here is one.
-/

namespace Hush

structure Visit where
  path : RawText
  result : Except CommentError FileOutcome

namespace Visit

def modified? (visit : Visit) : Option FileOutcome :=
  match visit.result with
  | .ok outcome => if outcome.changed then some outcome else none
  | .error _ => none

/-- The path of a visit that failed, with the message of the error. -/
def error? (visit : Visit) : Option (RawText × String) :=
  match visit.result with
  | .ok _ => none
  | .error error => some (visit.path, error.message)

def verdict (visit : Visit) : List Event :=
  match visit.result with
  | .ok outcome => if outcome.changed then [.modified] else [.unchanged]
  | .error error => [.failed visit.path error, .unchanged]

end Visit

def visit (disk : FileSystem) (path : RawText) : Run Visit :=
  let run := commentFile disk path
  let visit : Visit := ⟨path, run.value⟩
  { value := visit, disk := run.disk, events := .processing path :: run.events ++ visit.verdict }

structure Summary where
  scanned : Nat
  spans : Nat
  modified : List RawText
  errors : List (RawText × String)

namespace Summary

def ofVisits (visits : List Visit) : Summary :=
  let revised := visits.filterMap Visit.modified?
  { scanned := visits.length
    spans := revised.foldl (fun total outcome => total + outcome.spans.length) 0
    modified := revised.map FileOutcome.path
    errors := visits.filterMap Visit.error? }

def modifiedCount (summary : Summary) : Nat := summary.modified.length

end Summary

/-- The system that a run goes over: what it finds there, and what a visit does to it. -/
structure Host (m : Type → Type) where
  discover : Config → m (List RawText)
  visit : RawText → m Visit

namespace Host

variable {m : Type → Type} [Monad m]

def visitAll (host : Host m) : List RawText → m (List Visit)
  | [] => return []
  | path :: paths => do
    let first ← host.visit path
    let rest ← host.visitAll paths
    return first :: rest

def processDirectory (host : Host m) (config : Config) : m Summary := do
  let found ← host.discover config
  let visits ← host.visitAll found
  return .ofVisits visits

end Host

/-- What is done on a file system. -/
def Action (α : Type) : Type := FileSystem → Run α

instance : Monad Action where
  pure value disk := { value, disk }
  bind action next disk :=
    let first := action disk
    let rest := next first.value first.disk
    { rest with events := first.events ++ rest.events }

instance : LawfulMonad Action := LawfulMonad.mk' Action
  (by
    intro α action
    funext disk
    change { action disk with events := (action disk).events ++ [] } = action disk
    rw [List.append_nil])
  (by
    intro α β value next
    rfl)
  (by
    intro α β γ action next last
    funext disk
    simp only [bind, List.append_assoc])

/-- A file system as the system that a run goes over. -/
def FileSystem.host : Host Action where
  discover config disk := disk.discover config
  visit path disk := Hush.visit disk path

def visitAll (disk : FileSystem) (paths : List RawText) : Run (List Visit) :=
  FileSystem.host.visitAll paths disk

def processDirectory (disk : FileSystem) (config : Config) : Run Summary :=
  FileSystem.host.processDirectory config disk

theorem visitAll_cons (disk : FileSystem) (path : RawText) (paths : List RawText) :
    visitAll disk (path :: paths) =
      let first := visit disk path
      let rest := visitAll first.disk paths
      { value := first.value :: rest.value
        disk := rest.disk
        events := first.events ++ rest.events } := by
  simp only [visitAll, Host.visitAll, bind, pure, List.append_nil]
  rfl

theorem processDirectory_eq (disk : FileSystem) (config : Config) :
    processDirectory disk config =
      let found := disk.discover config
      let visits := visitAll found.disk found.value
      { value := .ofVisits visits.value
        disk := visits.disk
        events := found.events ++ visits.events } := by
  simp only [processDirectory, Host.processDirectory, bind, pure, List.append_nil]
  rfl

end Hush
