import Aurora.Thermos.Common.Ckpt

namespace Aurora.Thermos

open Collections

/-- The checkpoint files of the processes, as far as their coordinators have written them. -/
abbrev ProcessFiles := Dict Name (List ProcessStatus)

/-- A registered process: its high watermark and the position in its checkpoint once that is open. -/
structure Watched where
  watermark : Int
  position : Option Nat := none

structure ProcessMuxer where
  processes : Dict Name Watched := .empty

namespace ProcessMuxer

def register (name : Name) (watermark : Int) : EStateM Error ProcessMuxer Unit := do
  let muxer ← get
  if (muxer.processes.get? name).isSome then
    throw (.processExists ("Process " ++ name ++ " is already registered"))
  set { muxer with processes := muxer.processes.set name { watermark } }

def unregister (name : Name) : EStateM Error ProcessMuxer Unit := do
  let muxer ← get
  if (muxer.processes.get? name).isNone then
    throw (.processNotFound "No trace of process: %s" name)
  set { muxer with processes := muxer.processes.erase name }

/-- `_fast_forward_stream`: how many of the records are passed over. -/
def fastForward (watermark current : Int) : List ProcessStatus → Nat
  | [] => 0
  | record :: rest =>
    if current < watermark then
      let reached := record.seq.getD (-1)
      if watermark < reached then 0 else fastForward watermark reached rest + 1
    else 0

def bindProcesses (files : ProcessFiles) (muxer : ProcessMuxer) : ProcessMuxer where
  processes := muxer.processes.mapKeyed fun name watched =>
    match watched.position, files.get? name with
    | none, some records => { watched with position := some (fastForward watched.watermark (-1) records) }
    | _, _ => watched

def content (files : ProcessFiles) (name : Name) : List ProcessStatus := (files.get? name).getD []

def hasData (files : ProcessFiles) (name : Name) : EStateM Error ProcessMuxer Bool := do
  modify (bindProcesses files)
  match (← get).processes.get? name with
  | none => return false
  | some watched =>
    match watched.position with
    | none => throw .invalidFileHandle
    | some position => return position < (content files name).length

def readToEnd (files : ProcessFiles) (name : Name) (watched : Watched) : Watched :=
  { watched with position := watched.position.map fun _ => (content files name).length }

def select (files : ProcessFiles) : EStateM Error ProcessMuxer (List ProcessStatus) := do
  modify (bindProcesses files)
  let muxer ← get
  set ({ processes := muxer.processes.mapKeyed (readToEnd files) } : ProcessMuxer)
  return muxer.processes.entries.flatMap fun entry =>
    match entry.2.position with
    | none => []
    | some position => (content files entry.1).drop position

end ProcessMuxer

end Aurora.Thermos
