/-
The processes of PM and their dependencies, after process_data.c, info.c and the part of termination.c that
works on the process list.
-/
import Mathlib.Tactic

namespace Omiiba.Pm

inductive TerminationStatus
  | running
  | notificationSent
  | notificationFailed
  | terminated
  deriving DecidableEq

/-- `ProcessData`, with the `PROCESSFLAG`s apart; `node` is where it is in the buffer of the list. -/
structure ProcessData where
  node : Nat
  handle : UInt32
  pid : UInt32
  titleId : UInt64
  programHandle : UInt64
  notifyTermination : Bool
  kip : Bool
  dependenciesLoaded : Bool
  autoloaded : Bool
  notifyTerminationTerminated : Bool
  normalApplication : Bool
  terminatedNotificationVariation : UInt32
  terminationStatus : TerminationStatus
  refcount : UInt8
  deriving DecidableEq

/-- What other modules answer: `SRVPM_PublishToProcess` to a notification, `LOADER_GetProgramInfo` with the
dependencies in the exheader. -/
structure Services where
  published : UInt32 → Bool
  dependencies : UInt64 → Option (List UInt64)

/-- `N3DS_TID_MASK`. -/
def n3dsTidMask : UInt64 := 0xF0000000

/-! ## The process list -/

section ProcessList

variable (list : List ProcessData)

/-- `ProcessList_FindProcessById`. -/
def findProcessById (pid : UInt32) : Option ProcessData := list.find? fun process => process.pid = pid

/-- `ProcessList_FindProcessByHandle`. -/
def findProcessByHandle (handle : UInt32) : Option ProcessData := list.find? fun process => process.handle = handle

/-- `ProcessList_FindProcessByTitleId`: the last byte does not count. -/
def findProcessByTitleId (titleId : UInt64) : Option ProcessData :=
  list.find? fun process => process.titleId &&& ~~~(0xFF : UInt64) = titleId &&& ~~~(0xFF : UInt64)

/-- A write through the pointer to a node. -/
def modifyNode (node : Nat) (f : ProcessData → ProcessData) : List ProcessData :=
  list.map fun process => if process.node = node then f process else process

/-- `ProcessList_Delete`. -/
def deleteNode (node : Nat) : List ProcessData := list.filter fun process => process.node ≠ node

end ProcessList

/-- `ProcessData_SendTerminationNotification`. -/
def ProcessData.sendTerminationNotification (services : Services) (process : ProcessData) : ProcessData :=
  { process with
    terminationStatus := if services.published process.handle then .notificationSent else .notificationFailed }

/-- `ProcessData_Incref`; nothing comes after `panic(3)`. -/
def ProcessData.incref (amount : UInt32) (process : ProcessData) : Option ProcessData :=
  if process.autoloaded then
    if 0xFF < process.refcount.toUInt32 + amount then none
    else some { process with refcount := (process.refcount.toUInt32 + amount).toUInt8 }
  else some process

/-! ## Dependencies -/

/-- `listDependencies`, of the entries of an exheader. -/
def listDependencies (isN3ds : Bool) (entries : List UInt64) : List UInt64 :=
  (((entries.take 48).takeWhile (· ≠ 0)).filter fun titleId => isN3ds || titleId &&& n3dsTidMask = 0).map
    (· &&& ~~~n3dsTidMask)

/-- `getAndListDependencies`. -/
def getAndListDependencies (isN3ds : Bool) (services : Services) (process : ProcessData) : Option (List UInt64) :=
  (services.dependencies process.programHandle).map (listDependencies isN3ds)

/-- What `terminateUnusedDependencies` does to a process. -/
def ProcessData.dropReference (services : Services) (dependencies : List UInt64) (process : ProcessData) : ProcessData :=
  if process.terminationStatus ≠ .running ∨ process.autoloaded = false then process
  else if process.titleId ∉ dependencies then process
  else
    let process := { process with refcount := process.refcount - 1 }
    if 0 < process.refcount then process else process.sendTerminationNotification services

/-- `terminateUnusedDependencies`. -/
def terminateUnusedDependencies (services : Services) (dependencies : List UInt64) (list : List ProcessData) :
    List ProcessData :=
  list.map (·.dropReference services dependencies)

/-- `listAndTerminateDependencies`. -/
def listAndTerminateDependencies (isN3ds : Bool) (services : Services) (process : ProcessData)
    (list : List ProcessData) : List ProcessData :=
  match getAndListDependencies isN3ds services process with
  | none => list
  | some dependencies => terminateUnusedDependencies services dependencies list

/-- `terminateProcessImpl`: the dependencies are listed before the notification is sent. -/
def terminateProcessImpl (isN3ds : Bool) (services : Services) (process : ProcessData) (list : List ProcessData) :
    List ProcessData :=
  if process.dependenciesLoaded then
    match getAndListDependencies isN3ds services process with
    | none => list
    | some dependencies =>
      terminateUnusedDependencies services dependencies
        (modifyNode list process.node fun process =>
          { process with dependenciesLoaded := false }.sendTerminationNotification services)
  else modifyNode list process.node (·.sendTerminationNotification services)

end Omiiba.Pm
