import Janus.Runner.Execution

/-! The runner as a system of interleaved requests and runs, with its crashes and restarts. -/

namespace Janus.Runner

open Janus.Concurrency Janus.Data Janus.Server

inductive RunnerRole
  | create (n : ℕ) (name key : String) (body : Bytes)
  | cancel (jobId : String)
  | shutdown (looks : ℕ)
  | run (m : ℕ)
  | boot
  | upload (bytes : Bytes) (checksum : Option String)
  | cleanup

def createRole (rt : Runtime) (n : ℕ) (name key : String) (body : Bytes) : RunnerTask Unit := do
  request (.arrive n)
  let result ← (createJobRequest rt n name key body).attempt
  request (.respond n name key body result)

def RunnerRole.program (rt : Runtime) : RunnerRole → RunnerTask Unit
  | .create n name key body => createRole rt n name key body
  | .cancel jobId => cancelJob rt jobId
  | .shutdown looks => do
    let _ ← beginShutdown rt
    let _ ← waitForDrain looks
    pure ()
  | .run m => runJob rt m
  | .boot => do
    let _ ← recoverInterruptedJobs
    request .serve
  | .upload bytes checksum => do
    let _ ← storeBytes rt bytes checksum
    pure ()
  | .cleanup => cleanupExpired

def RunnerRole.beside : RunnerRole → RunnerRole → Bool
  | .boot, _ | _, .boot => false
  | .create n _ _ _, .create n' _ _ _ => n ≠ n'
  | .run m, .run m' => m ≠ m'
  | _, _ => true

def runnerSystem (rt : Runtime) :
    System RunnerRole RunnerCall RunnerCall.Result JobError RunnerStore Outcome Empty where
  program := RunnerRole.program rt
  beside := RunnerRole.beside
  exec := RunnerCall.exec rt
  environ v _ := v.elim
  ready := RunnerCall.ready
  crashed := RunnerStore.crashed

abbrev RunnerPool := Pool RunnerRole RunnerCall RunnerCall.Result JobError RunnerStore

abbrev RunnerEvent := Event RunnerRole Outcome Empty

def RunnerPool.initial : RunnerPool := { store := {}, tasks := [] }

end Janus.Runner
