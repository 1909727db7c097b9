import TableExport.Error

/-!
# Exit statuses

How a process ends, as its caller sees it.
-/
namespace TableExport

inductive ExitStatus
  | ok
  -- The database failed, or a service could not be reached.
  | storageError
  -- A sink or an upload failed.
  | outputError
  -- The settings or the command line make no sense.
  | configurationError
  deriving DecidableEq, Repr

namespace ExitStatus

def code : ExitStatus → UInt8
  | .ok => 0
  | .storageError => 1
  | .outputError => 2
  | .configurationError => 3

def ofError (e : ExportError) : ExitStatus :=
  if e.isStorageError then .storageError
  else if e.isOutputError then .outputError
  else .configurationError

theorem code_injective {a b : ExitStatus} (h : a.code = b.code) : a = b := by
  cases a <;> cases b <;> simp_all [code]

end ExitStatus

/-- How a process ends: with a status, or by a crash. -/
inductive Ending
  | exits (status : ExitStatus)
  | crashes
  deriving DecidableEq, Repr

def Ending.code : Ending → UInt8
  | .exits status => status.code
  | .crashes => 101

end TableExport
