import Aurora.Library.Transition
import Aurora.Thermos.Core.Runner

namespace Aurora.Thermos

open Collections

namespace ProcessBase

def maximumControlWait : Nat := 60000

def controlWaitCheckInterval : Nat := 100

end ProcessBase

inductive Fate
  /-- in `_wait_for_control`, with the total wait time -/
  | waiting (total : Nat)
  /-- in `execute`, with the sequence number of its next update and whether RUNNING is written -/
  | executing (seq : Int) (running : Bool)
  | finished
  | raised (e : Error)
  deriving DecidableEq

structure Coordinator where
  name : Name
  run : Nat
  seq : Int
  pid : Int
  forkTime : Time
  /-- `_ckpt_head`, counted in records -/
  head : Nat
  fate : Fate := .waiting 0
  deriving DecidableEq

namespace Coordinator

/-- `_write_initial_update`, which the parent writes for it. -/
def initialUpdate (coordinator : Coordinator) : ProcessStatus where
  seq := some coordinator.seq
  process := some coordinator.name
  state := some .forked
  forkTime := some coordinator.forkTime
  coordinatorPid := some coordinator.pid

def passed (coordinator : Coordinator) : Bool :=
  match coordinator.fate with
  | .executing _ _ | .finished => true
  | .waiting _ | .raised _ => false

def waitForControl (coordinator : Coordinator) (records : List ProcessStatus) (total : Nat) : Fate :=
  if total < ProcessBase.maximumControlWait then
    match records[coordinator.head]? with
    | none => .waiting (total + ProcessBase.controlWaitCheckInterval)
    | some status =>
      if status.process ≠ some coordinator.name ∨ status.state ≠ some .forked ∨
          status.forkTime ≠ some coordinator.forkTime ∨ status.coordinatorPid ≠ some coordinator.pid then
        .raised (.processError "Lost control of the checkpoint stream!")
      else
        match status.seq with
        | some seq => .executing (seq + 1) false
        | none => .raised .typeError
  else .raised (.processError "Timed out waiting for checkpoint stream!")

end Coordinator

inductive Phase
  /-- in the handlers of a task state, on taking over or on a transition -/
  | entering (resumes : Bool)
  /-- `control`, before the process checkpoints are read -/
  | resuming
  /-- with updates that are read but not dispatched -/
  | collecting (unread : List ProcessStatus)
  /-- at the head of the loop of `_run` -/
  | ready
  /-- in `_run_plan`, with the picked processes that are still to be launched -/
  | launching (names : List Name)
  /-- in `Process.start`, behind `_prepare_fork` -/
  | prepared (name : Name) (head : Nat) (forkTime : Time) (names : List Name)
  /-- in `Process.start`, behind the fork -/
  | forked (index : Nat) (names : List Name)
  deriving DecidableEq

structure Holder where
  runner : Runner
  phase : Phase

/-- A task with its checkpoint stream, the checkpoints of its processes, the runner that holds the lock
    on the stream, and all coordinators that were ever forked. -/
structure Coordination where
  stream : List RunnerCkpt := []
  files : ProcessFiles := .empty
  holder : Option Holder := none
  coordinators : List Coordinator := []

namespace Coordination

inductive Event
  | crash
  | takeOver (answers : List Answer) (timestampMs : Int)
  | selectPlan
  | resume
  | apply (now : Time)
  | schedule (now : Time) (names : List Name)
  | hasData (name : Name)
  | mark (name : Name) (state : ProcessState) (stopTime : Option Time) (returnCode : Option Int) (now : Time)
  | await (now : Time)
  | prepareFork (acquired : Bool) (forkTime now : Time)
  | fork (pid : Int)
  | finalizeFork
  | collect
  | transition (next : TaskState) (timestampMs : Int)
  | waitForControl (index : Nat)
  | running (index : Nat) (pid : Int) (startTime : Time)
  | finish (index : Nat) (state : ProcessState) (stopTime : Time) (returnCode : Int)

def append (files : ProcessFiles) (name : Name) (records : List ProcessStatus) : ProcessFiles :=
  files.set name (ProcessMuxer.content files name ++ records)

/-- The handlers of a record; those of a task state take steps of their own. -/
def handle (config : RunnerConfig) (now : Time) : CheckpointDispatcher.Dispatched → EStateM Error Runner Unit
  | .skipped | .initialization _ | .taskTransition _ => return
  | .processTransition update => TaskRunnerProcessHandler.onTransition config now update

/-- `dispatch` of a live runner, which checkpoints first and then handles; an exception ends it. -/
def dispatch (config : RunnerConfig) (now : Time) (record : RunnerCkpt) (phase : Phase) (runner : Runner)
    (c : Coordination) : Coordination :=
  match (CheckpointDispatcher.dispatch false false record).run runner.state with
  | .error _ _ => { c with holder := none }
  | .ok event state =>
    match (handle config now event).run { runner with state } with
    | .error _ _ => { c with stream := c.stream ++ [record], holder := none }
    | .ok _ runner => { c with stream := c.stream ++ [record], holder := some { runner, phase } }

def setProcessStatus (config : RunnerConfig) (now : Time) (name : Name) (state : ProcessState)
    (stopTime : Option Time) (returnCode : Option Int) (phase : Phase) (runner : Runner) (c : Coordination) :
    Coordination :=
  let update : ProcessStatus := { process := some name, state := some state, stopTime, returnCode }
  match runner.state.currentRun (some name) with
  | none =>
    if state = .waiting then
      dispatch config now { processStatus := some { update with seq := some 0 } } phase runner c
    else { c with holder := none }
  | some run => dispatch config now { processStatus := some { update with seq := some (run.seq + 1) } } phase runner c

def setTaskStatus (config : RunnerConfig) (state : TaskState) (timestampMs : Int) (resumes : Bool) (runner : Runner)
    (c : Coordination) : Coordination :=
  let status : TaskStatus :=
    { state := some state, timestampMs := some timestampMs, runnerPid := some config.pid,
      runnerUid := some config.uid }
  dispatch config 0 { taskStatus := some status } (.entering resumes) runner c

def initializeCkptHeader (config : RunnerConfig) (phase : Phase) (runner : Runner) (c : Coordination) : Coordination :=
  if runner.state.header.isNone then dispatch config 0 { runnerHeader := some config.header } phase runner c
  else { c with holder := some { runner, phase } }

/-- The updates that `_replay_process_ckpts` keeps; the others are skipped. -/
def unapplied (state : RunnerState) : List ProcessStatus → Except Error (List ProcessStatus)
  | [] => return []
  | update :: rest => do
    let updates ← CheckpointDispatcher.wouldUpdate state { processStatus := some update }
    let others ← unapplied state rest
    return if updates then update :: others else others

def stagePlan : Option TaskState → Option Plan
  | some .active => some .regular
  | some .finalizing => some .finalizing
  | _ => none

def nextStates : Option TaskState → List TaskState
  | some .active => [.cleaning]
  | some .cleaning => [.finalizing, .success, .failed, .killed, .lost]
  | some .finalizing => [.success, .failed, .killed, .lost]
  | _ => []

/-- What a pass over a plan may pick; the limit on concurrency leaves out some of it. -/
def Picks (runner : Runner) (now : Time) (names : List Name) : Prop :=
  names.Nodup ∧ ∀ name ∈ names, ∃ plan, stagePlan (TaskRunner.taskState runner) = some plan ∧
    name ∈ (runner.planner plan).runnableAt now

instance (runner : Runner) (now : Time) (names : List Name) : Decidable (Picks runner now names) :=
  have : ∀ name, Decidable (∃ plan, stagePlan (TaskRunner.taskState runner) = some plan ∧
      name ∈ (runner.planner plan).runnableAt now) := fun name =>
    match shown : stagePlan (TaskRunner.taskState runner) with
    | none => isFalse (by simp)
    | some plan => decidable_of_iff (name ∈ (runner.planner plan).runnableAt now) (by simp)
  inferInstanceAs (Decidable (_ ∧ _))

def holderStep (config : RunnerConfig) (c : Coordination) (runner : Runner) (phase : Phase) : Event → Option Coordination
  | .crash => some { c with holder := none }
  | .mark name state stopTime returnCode now =>
    -- `_kill` and the losses of a schedule pass
    if (phase = .entering true ∨ phase = .entering false ∨ phase = .ready) ∧ (state = .lost ∨ state = .killed) then
      some (setProcessStatus config now name state stopTime returnCode phase runner c)
    else none
  | .selectPlan =>
    match phase with
    | .entering resumes =>
      let plan := (stagePlan (TaskRunner.taskState runner)).orElse fun _ => runner.plan
      let phase : Phase := if resumes then .resuming else .ready
      some { c with holder := some { runner := { runner with plan }, phase } }
    | _ => none
  | .hasData name =>
    if phase = .ready then
      match (ProcessMuxer.hasData c.files name).run runner.watcher with
      | .ok _ watcher => some { c with holder := some { runner := { runner with watcher }, phase } }
      | .error _ _ => some { c with holder := none }
    else none
  | .resume =>
    if phase = .resuming then
      match (ProcessMuxer.select c.files).run runner.watcher with
      | .ok updates watcher =>
        match unapplied runner.state updates with
        | .ok updates => some (initializeCkptHeader config (.collecting updates) { runner with watcher } c)
        | .error _ => some { c with holder := none }
      | .error _ _ => some { c with holder := none }
    else none
  | .collect =>
    if phase = .launching [] then
      match (ProcessMuxer.select c.files).run runner.watcher with
      | .ok updates watcher => some { c with holder := some { runner := { runner with watcher }, phase := .collecting updates } }
      | .error _ _ => some { c with holder := none }
    else none
  | .apply now =>
    match phase with
    | .collecting [] => some { c with holder := some { runner, phase := .ready } }
    | .collecting (update :: rest) =>
      some (dispatch config now { processStatus := some update } (.collecting rest) runner c)
    | _ => none
  | .schedule now names =>
    if phase = .ready ∧ Picks runner now names then
      some { c with holder := some { runner, phase := .launching names } }
    else none
  | .transition next timestampMs =>
    if phase = .launching [] ∧ next ∈ nextStates (TaskRunner.taskState runner) then
      some (setTaskStatus config next timestampMs false runner c)
    else none
  | .await now =>
    match phase with
    | .launching (name :: names) =>
      if (runner.taskProcesses.get? name).isNone then
        some (setProcessStatus config now name .waiting none none (.launching (name :: names)) runner c)
      else none
    | _ => none
  | .prepareFork acquired forkTime now =>
    match phase with
    | .launching (name :: names) =>
      match runner.taskProcesses.get? name, runner.state.currentRun (some name) with
      | some _, some run =>
        if run.state = some .waiting then
          if acquired then
            -- locking the checkpoint creates it
            let head := (ProcessMuxer.content c.files name).length
            let holder : Holder := { runner, phase := .prepared name head forkTime names }
            some { c with files := append c.files name [], holder := some holder }
          else some (setProcessStatus config now name .failed none none (.launching names) runner c)
        else some { c with holder := none }
      | some _, none => some { c with holder := none }
      | none, _ => none
    | _ => none
  | .fork pid =>
    match phase with
    | .prepared name head forkTime names =>
      match runner.taskProcesses.get? name with
      | some process =>
        if ∀ other ∈ c.coordinators, (other.pid, other.forkTime) ≠ (pid, forkTime) then
          let forked : Coordinator := { name, run := process.run, seq := process.seq, pid, forkTime, head }
          some { c with
            holder := some { runner, phase := .forked c.coordinators.length names }
            coordinators := c.coordinators ++ [forked] }
        else none
      | none => none
    | _ => none
  | .finalizeFork =>
    match phase with
    | .forked index names =>
      match c.coordinators[index]? with
      | some forked =>
        let process : TaskProcess :=
          { seq := forked.seq + 1, run := forked.run, pid := some forked.pid, forkTime := some forked.forkTime }
        let runner := { runner with taskProcesses := runner.taskProcesses.set forked.name process }
        some { c with
          files := append c.files forked.name [forked.initialUpdate]
          holder := some { runner, phase := .launching names } }
      | none => none
    | _ => none
  | _ => none

def coordinatorStep (c : Coordination) (index : Nat) (coordinator : Coordinator) : Event → Option Coordination
  | .waitForControl _ =>
    match coordinator.fate with
    | .waiting total =>
      let fate := coordinator.waitForControl (ProcessMuxer.content c.files coordinator.name) total
      some { c with coordinators := c.coordinators.set index { coordinator with fate } }
    | _ => none
  | .running _ pid startTime =>
    match coordinator.fate with
    | .executing seq false =>
      let update : ProcessStatus :=
        { seq := some seq, process := some coordinator.name, state := some .running, pid := some pid,
          startTime := some startTime }
      some { c with
        files := append c.files coordinator.name [update]
        coordinators := c.coordinators.set index { coordinator with fate := .executing (seq + 1) true } }
    | _ => none
  | .finish _ state stopTime returnCode =>
    match coordinator.fate with
    | .executing seq true =>
      if state = .success ∨ state = .failed ∨ state = .killed then
        let update : ProcessStatus :=
          { seq := some seq, process := some coordinator.name, state := some state, stopTime := some stopTime,
            returnCode := some returnCode }
        some { c with
          files := append c.files coordinator.name [update]
          coordinators := c.coordinators.set index { coordinator with fate := .finished } }
      else none
    | _ => none
  | _ => none

def step (config : RunnerConfig) (c : Coordination) (event : Event) : Option Coordination :=
  match event with
  | .takeOver answers timestampMs =>
    match c.holder, TaskRunner.create config c.stream answers with
    | none, .ok runner =>
      match TaskRunner.taskState runner with
      | some state =>
        if TaskRunner.isTerminal runner then none
        else some (setTaskStatus config state timestampMs true { runner with recovery := false } c)
      | none => none
    | _, _ => none
  | .waitForControl index | .running index _ _ | .finish index _ _ _ =>
    match c.coordinators[index]? with
    | some coordinator => coordinatorStep c index coordinator event
    | none => none
  | event =>
    match c.holder with
    | some holder => holderStep config c holder.runner holder.phase event
    | none => none

end Coordination

end Aurora.Thermos
