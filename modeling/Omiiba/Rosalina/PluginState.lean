/-
The plugin loader over the life of a plugin: the load command, the events that the kernel extension signals when the
application leaves or comes back and when its process exits, and the task that ends the plugin. What the file, the kernel
and the SD card answer is part of the input; a failure that reboots the console has no next state.
-/
import Omiiba.Lib.System
import Omiiba.Rosalina.PluginLoad

namespace Omiiba.Rosalina

/-! ## Status word -/

/-- `PLG_CFG_NONE`. -/
def plgCfgNone : UInt32 := 0
/-- `PLG_CFG_RUNNING`. -/
def plgCfgRunning : UInt32 := 1
/-- `PLG_CFG_INHOME`. -/
def plgCfgInHome : UInt32 := 2
/-- `PLG_CFG_EXITING`. -/
def plgCfgExiting : UInt32 := 3
/-- `PLG_CFG_HOME_EVENT`. -/
def plgCfgHomeEvent : UInt32 := 0x10000
/-- `PLG_CFG_EXIT_EVENT`. -/
def plgCfgExitEvent : UInt32 := 0x20000

/-- `PLG_STRATEGY_SWAP`. -/
def plgStrategySwap : UInt8 := 0
/-- `PLG_STRATEGY_NONE`. -/
def plgStrategyNone : UInt8 := 2

/-- Where the application of a plugin is. -/
inductive PluginPlace
  | absent
  | running
  | home
  | exiting
  deriving DecidableEq, Repr

/-- The status of a place. -/
def PluginPlace.status : PluginPlace → UInt32
  | .absent => plgCfgNone
  | .running => plgCfgRunning
  | .home => plgCfgInHome
  | .exiting => plgCfgExiting

/-! ## State -/

/-- The swap functions of the plugin: what they leave in the block, and the checksum they return. -/
structure SwapFunctions where
  saveSwapFunc : List UInt8 → List UInt8 × UInt32
  loadSwapFunc : List UInt8 → List UInt8 × UInt32

/-- The load function undoes the save function, which works in place. -/
structure SwapFunctions.Undoes (f : SwapFunctions) : Prop where
  load_save : ∀ m, (f.loadSwapFunc (f.saveSwapFunc m).1).1 = m
  length : ∀ m, (f.saveSwapFunc m).1.length = m.length

/-- The context of the loader with the contents of its block, the status word in config memory, what is allocated and mapped
in each process, the swap file, and the tasks that wait for the end of the target. The last four are history: the process
whose plugin is loaded, where its application is, what was in the block when it was last swapped out, and what was there
before and after each swap. A handle is the process it was opened for, and `0` is none. -/
structure PluginState where
  pluginIsSwapped : Bool
  pluginIsHome : Bool
  isReady : Bool
  memblock : List UInt8
  memBlockSize : UInt32
  target : UInt32
  pluginMemoryStrategy : UInt8
  isSwapFunctionset : Bool
  swapLoadChecksum : UInt32
  config : UInt32
  allocated : Bool
  exeMapped : UInt32 → Bool
  heapMapped : UInt32 → Bool
  swapFile : List UInt8
  waiting : Nat
  loaded : Option UInt32
  place : PluginPlace
  swappedOut : List UInt8
  restored : List (List UInt8 × List UInt8)

/-- `PLG__GetConfigMemoryStatus`. -/
def PluginState.status (s : PluginState) : UInt32 := s.config &&& 0xFFFF

/-- `PLG__GetConfigMemoryEvent`. -/
def PluginState.event (s : PluginState) : UInt32 := s.config &&& 0xFFFF0000

/-! ## Memory block -/

/-- What the kernel and the SD card answer. -/
structure BlockAnswers where
  exe : Bool
  heap : Bool
  freed : Bool
  file : Bool
  deriving DecidableEq, Repr

section

variable (s : PluginState) (a : BlockAnswers)

/-- `MemoryBlock__IsReady`. -/
def memoryBlockIsReady : PluginState :=
  if s.isReady then s
  else { s with isReady := true, allocated := true, memblock := List.replicate s.memBlockSize.toNat 0 }

/-- `MemoryBlock__Free`. -/
def memoryBlockFree : PluginState :=
  if s.isReady then { s with isReady := false, allocated := s.allocated && !a.freed, memblock := [] } else s

/-- `MemoryBlock__MountInProcess`; the heap is not mapped if the executable is not. -/
def mountInProcess : PluginState :=
  { s with
    exeMapped := Function.update s.exeMapped s.target (s.exeMapped s.target || a.exe)
    heapMapped := Function.update s.heapMapped s.target (s.heapMapped s.target || (a.exe && a.heap)) }

/-- `MemoryBlock__UnmountFromProcess`. -/
def unmountFromProcess : PluginState :=
  { s with
    exeMapped := Function.update s.exeMapped s.target (s.exeMapped s.target && !a.exe)
    heapMapped := Function.update s.heapMapped s.target (s.heapMapped s.target && !a.heap) }

/-- `MemoryBlock__ToSwapFile`; the file is not cut off. -/
def toSwapFile (f : SwapFunctions) : Option PluginState :=
  let (saved, checksum) := f.saveSwapFunc s.memblock
  if a.file && s.isSwapFunctionset then
    some { s with swapLoadChecksum := checksum, memblock := saved, swapFile := saved ++ s.swapFile.drop saved.length }
  else none

/-- `MemoryBlock__FromSwapFile`. -/
def fromSwapFile (f : SwapFunctions) : Option PluginState :=
  let read := s.swapFile.take s.memBlockSize.toNat
  if a.file && read.length == s.memBlockSize.toNat then
    let (contents, checksum) := f.loadSwapFunc read
    if checksum = s.swapLoadChecksum then some { s with memblock := contents } else none
  else none

end

/-! ## Load command -/

/-- A load command: the process, the settings that are in force, and what is found of the plugin on the way. -/
structure LoadCommand where
  process : UInt32
  isEnabled : Bool
  /-- The strategy of the user's parameters, if they are for the title. -/
  userStrategy : Option UInt8
  opened : Bool
  /-- The header is read, and the plugin is one for this console and for this kind of title. -/
  accepted : Bool
  swapNotNeeded : Bool
  memoryRegionSize : Fin 4
  /-- The swap functions are in the file. -/
  embeddedSwapFunctions : Bool
  /-- The rest of the file is read, with the block as it is then. -/
  read : Bool
  image : List UInt8
  answers : BlockAnswers
  /-- The start of the process is mapped, to be hooked. -/
  hooked : Bool

section

variable (s : PluginState) (c : LoadCommand)

/-- The end of `TryToLoadPlugin`: the block is mounted, and the process is hooked. -/
def mountAndHook : PluginState × Bool :=
  let s := mountInProcess s c.answers
  if c.answers.exe && c.answers.heap && c.hooked then (s, true) else (memoryBlockFree s c.answers, false)

/-- The part of `TryToLoadPlugin` behind the header; the size of a block cannot be set while there is one. -/
def fillBlock : PluginState × Bool :=
  if s.isReady then (memoryBlockFree s c.answers, false)
  else
    let s := memoryBlockIsReady { s with memBlockSize := memRegionSizes c.memoryRegionSize }
    let s := { s with isSwapFunctionset := s.isSwapFunctionset || c.embeddedSwapFunctions }
    if c.read then mountAndHook { s with memblock := c.image } c else (memoryBlockFree s c.answers, false)

/-- `TryToLoadPlugin`. -/
def tryToLoadPlugin : PluginState × Bool :=
  let s := { s with pluginMemoryStrategy := c.userStrategy.getD s.pluginMemoryStrategy }
  if c.opened then
    if c.accepted then
      let strategy :=
        if s.pluginMemoryStrategy == plgStrategySwap && c.swapNotNeeded then plgStrategyNone else s.pluginMemoryStrategy
      fillBlock { s with pluginMemoryStrategy := strategy } c
    else (memoryBlockFree s c.answers, false)
  else (s, false)

/-- The load command of `PluginLoader__HandleCommands`. -/
def loadPlugin : PluginState :=
  let s := { s with target := c.process }
  let r := if c.isEnabled then tryToLoadPlugin s c else (s, false)
  if r.2 then { r.1 with config := plgCfgRunning, loaded := some c.process, place := .running }
  else { r.1 with target := 0 }

end

/-! ## Kernel extension -/

/-- What `APT:ReceiveParameter` gave to an application. -/
structure AptParameter where
  forApplication : Bool
  received : Bool
  command : UInt32
  deriving DecidableEq, Repr

/-- `PLG_SignalEvent`; the notification is handled later. -/
def plgSignalEvent (s : PluginState) (event : UInt32) : PluginState := { s with config := s.config ||| event }

/-- The test of `SendSyncRequestHook`. -/
def signalsHome (s : PluginState) (p : AptParameter) : Bool :=
  p.forApplication && p.received &&
    ((s.status == plgCfgRunning && p.command == 3) || (s.status == plgCfgInHome && (p.command ≥ 10 || p.command ≤ 12)))

/-- Where a parameter takes the application: a response lets it leave, and it comes back to exit, after a pause or because
the home menu was cancelled. -/
def AptParameter.moves (p : AptParameter) (place : PluginPlace) : PluginPlace :=
  match place with
  | .running => if p.forApplication && p.received && p.command == 3 then .home else .running
  | .home => if p.forApplication && p.received && decide (10 ≤ p.command ∧ p.command ≤ 12) then .running else .home
  | place => place

def receiveParameter (s : PluginState) (p : AptParameter) : PluginState :=
  let s' := { s with place := p.moves s.place }
  if signalsHome s p then plgSignalEvent s' plgCfgHomeEvent else s'

/-- `ExitProcessHook` for the target of a plugin. -/
def exitTarget (s : PluginState) : PluginState :=
  let s' := { s with place := .exiting }
  if s.status = plgCfgRunning then plgSignalEvent s' plgCfgExitEvent else s'

/-! ## Kernel events -/

section

variable (isN3DS : Bool) (f : SwapFunctions) (s : PluginState) (a : BlockAnswers)

/-- The plugin's memory is read back from the swap file; whether it can be mounted is not looked at. -/
def swapIn : Option PluginState :=
  (fromSwapFile (memoryBlockIsReady s) a f).map fun s =>
    { mountInProcess s a with
      config := plgCfgRunning, pluginIsSwapped := false, restored := s.restored ++ [(s.swappedOut, s.memblock)] }

/-- The plugin's memory is put into the swap file. -/
def swapOut : Option PluginState :=
  (toSwapFile (unmountFromProcess s a) a f).map fun s' =>
    { memoryBlockFree s' a with config := plgCfgInHome, pluginIsSwapped := true, swappedOut := s.memblock }

/-- `PluginLoader__HandleKernelEvent`. -/
def handleKernelEvent : Option PluginState :=
  if s.status = plgCfgExiting then some s
  else if s.event = plgCfgExitEvent then some { s with config := plgCfgExiting, waiting := s.waiting + 1 }
  else if s.event = plgCfgHomeEvent then
    if s.pluginMemoryStrategy == plgStrategySwap && !isN3DS then
      if s.pluginIsSwapped then swapIn f s a else swapOut f s a
    else
      some { s with config := if s.pluginIsHome then plgCfgRunning else plgCfgInHome, pluginIsHome := !s.pluginIsHome }
  else some s

/-- `WaitForProcessTerminated`, behind the wait. -/
def waitForProcessTerminated : PluginState :=
  let s := if s.pluginIsSwapped then s else memoryBlockFree (unmountFromProcess s a) a
  { s with
    config := plgCfgNone, pluginIsSwapped := false, pluginIsHome := false, target := 0, isSwapFunctionset := false,
    pluginMemoryStrategy := plgStrategySwap, waiting := s.waiting - 1, loaded := none, place := .absent }

end

/-! ## Runs -/

inductive PluginInput
  | load (c : LoadCommand)
  | parameter (p : AptParameter)
  | exit
  | kernelEvent (a : BlockAnswers)
  | terminated (a : BlockAnswers)
  /-- The plugin writes to its memory. -/
  | write (m : List UInt8)

/-- Nothing is mapped in a process that could not be opened, a process has its plugin's image in a block of the chosen size,
only a process that has a plugin is a target, and a task has been started before it runs. -/
def PluginState.Enabled (s : PluginState) : PluginInput → Prop
  | .load c => (c.process = 0 → c.answers.exe = false) ∧ c.image.length = (memRegionSizes c.memoryRegionSize).toNat
  | .parameter _ => True
  | .exit => s.loaded.isSome = true
  | .kernelEvent _ => True
  | .terminated _ => 0 < s.waiting
  | .write m => s.isReady = true ∧ m.length = s.memblock.length

def PluginState.step (isN3DS : Bool) (f : SwapFunctions) (s : PluginState) : PluginInput → Option PluginState
  | .load c => some (loadPlugin s c)
  | .parameter p => some (receiveParameter s p)
  | .exit => some (exitTarget s)
  | .kernelEvent a => handleKernelEvent isN3DS f s a
  | .terminated a => some (waitForProcessTerminated s a)
  | .write m => some { s with memblock := m }

/-- `PluginLoader__Init`. -/
def PluginState.init : PluginState :=
  { pluginIsSwapped := false, pluginIsHome := false, isReady := false, memblock := [], memBlockSize := 5 * 1024 * 1024,
    target := 0, pluginMemoryStrategy := plgStrategySwap, isSwapFunctionset := false, swapLoadChecksum := 0,
    config := plgCfgNone, allocated := false, exeMapped := fun _ => false, heapMapped := fun _ => false, swapFile := [],
    waiting := 0, loaded := none, place := .absent, swappedOut := [], restored := [] }

def pluginSystem (isN3DS : Bool) (f : SwapFunctions) : System PluginState PluginInput :=
  System.guarded (· = .init) PluginState.Enabled (PluginState.step isN3DS f)

end Omiiba.Rosalina
