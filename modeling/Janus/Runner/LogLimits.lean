import Janus.Runner.Release

/-! The log limits of a job: `execute_process` and the captures of its two streams, one step of any
of them or of the processes of the job at a time. -/

namespace Janus.Runner

open Janus.Concurrency Janus.Data Janus.Server

inductive LogStream
  | stdout | stderr
  deriving DecidableEq

def LogStream.name : LogStream → String
  | .stdout => "stdout"
  | .stderr => "stderr"

structure LogLimitEvent where
  streamName : String
  message : String
  deriving DecidableEq

def logLimitMessage (streamName : String) (limitBytes : ℕ) : String :=
  s!"job {streamName} log exceeded configured limit of {limitBytes} bytes"

/-- A stream: how many bytes the processes of the job have written to it, whether one of them still
holds it open, and how far `capture_output` has come at its other end. -/
structure Capture where
  produced : ℕ := 0
  held : Bool := true
  read : ℕ := 0
  written : ℕ := 0
  result : Option (Except JobError Unit) := none

def captureOutput (limitBytes : ℕ) (streamName : String) (read : ℕ) (capture : Capture) :
    Capture × Option LogLimitEvent :=
  let event : LogLimitEvent := ⟨streamName, logLimitMessage streamName limitBytes⟩
  if read = 0 then ({ capture with result := some (.ok ()) }, none)
  else
    let remaining := limitBytes - capture.written
    if remaining = 0 then
      ({ capture with read := capture.read + read, result := some (.ok ()) }, some event)
    else
      let toWrite := min remaining read
      let capture :=
        { capture with read := capture.read + read, written := capture.written + toWrite }
      if toWrite < read then ({ capture with result := some (.ok ()) }, some event)
      else (capture, none)

/-- Where it is: at the top of the loop, in `select!` with its sleep, before `try_wait`, or past the
loop. -/
inductive WatchStage
  | looping
  | selecting (wake : Instant)
  | waiting
  | terminating (ended : Ended)
  | awaiting (stream : LogStream) (code : Option ℤ)
  | returned (outcome : Except JobError Ended)

structure Watch where
  captures : LogStream → Capture
  events : List LogLimitEvent := []
  exited : Option (Option ℤ) := none
  canceled : Bool := false
  now : Instant
  stage : WatchStage := .looping

def Watch.start (now : Instant) : Watch where
  captures _ := {}
  now := now

/-- What can happen. A step of `execute_process` is told which branch is taken where several are
ready, and whether `try_wait` fails. -/
inductive Action
  | write (stream : LogStream) (bytes : ℕ)
  | close (stream : LogStream)
  | exit (code : Option ℤ)
  | cancel
  | wait (duration : ℕ)
  | capture (stream : LogStream) (read : ℕ)
  | captureFails (stream : LogStream) (error : JobError)
  | execute (selected : Selected) (fails : Option String)

namespace Watch

variable (execution : JobExecution) (deadline : Instant) (s : Watch)

def setCapture (stream : LogStream) (capture : Capture) : Watch :=
  { s with captures := fun stream' => if stream' = stream then capture else s.captures stream' }

def recvEvent (streamName message : String) : Option Watch :=
  match s.events with
  | [] => none
  | event :: events =>
    if event = ⟨streamName, message⟩ then
      some { s with events, stage := .terminating (.logLimit streamName message) }
    else none

def execute (selected : Selected) (fails : Option String) : Option Watch :=
  match s.stage with
  | .looping =>
    if deadline ≤ s.now then some { s with stage := .terminating .timedOut }
    else some { s with stage := .selecting (s.now + 25000000) }
  | .selecting wake =>
    match selected with
    | .canceled => if s.canceled then some { s with stage := .terminating .canceled } else none
    | .logLimit streamName message => s.recvEvent streamName message
    | .slept => if wake ≤ s.now then some { s with stage := .waiting } else none
  | .waiting =>
    match fails, s.exited with
    | some source, _ =>
      some { s with stage := .returned (.error (.waitProcess execution.manifest.script source)) }
    | none, some code => some { s with stage := .awaiting .stdout code }
    | none, none => some { s with stage := .looping }
  | .terminating ended => some { s with stage := .returned (.ok ended) }
  | .awaiting stream code =>
    match (s.captures stream).result, stream with
    | none, _ => none
    | some (.error error), _ => some { s with stage := .returned (.error error) }
    | some (.ok ()), .stdout => some { s with stage := .awaiting .stderr code }
    | some (.ok ()), .stderr => some { s with stage := .returned (.ok (.exited code)) }
  | .returned _ => none

def act : Action → Option Watch
  | .write stream bytes =>
    let capture := s.captures stream
    if capture.held = true ∧ capture.result = none then
      some (s.setCapture stream { capture with produced := capture.produced + bytes })
    else none
  | .close stream => some (s.setCapture stream { s.captures stream with held := false })
  | .exit code => if s.exited = none then some { s with exited := some code } else none
  | .cancel => some { s with canceled := true }
  | .wait duration => some { s with now := s.now + duration }
  | .capture stream read =>
    let capture := s.captures stream
    if capture.result = none ∧ read ≤ 8192 ∧ capture.read + read ≤ capture.produced ∧
        (read = 0 → capture.held = false ∧ capture.read = capture.produced) then
      let captured := captureOutput execution.logLimitBytes stream.name read capture
      some { s.setCapture stream captured.1 with events := s.events ++ captured.2.toList }
    else none
  | .captureFails stream error =>
    let capture := s.captures stream
    if capture.result = none then
      some (s.setCapture stream { capture with result := some (.error error) })
    else none
  | .execute selected fails => s.execute execution deadline selected fails

/-- Once `execute_process` has returned, the captures have ended and nothing looks at the processes. -/
def step (a : Action) : Option Watch :=
  match s.stage with
  | .returned _ => none
  | _ => s.act execution deadline a

def run (s : Watch) : List Action → Option Watch
  | [] => some s
  | a :: as => (s.step execution deadline a).bind fun s' => s'.run as

end Watch

def Ended.Reports (stream : LogStream) : Ended → Prop
  | .logLimit streamName _ => streamName = stream.name
  | _ => False

def WatchStage.Reports (stream : LogStream) : WatchStage → Prop
  | .looping | .selecting _ | .waiting => True
  | .terminating ended | .returned (.ok ended) => ended.Reports stream
  | .awaiting _ _ | .returned (.error _) => False

section

variable (execution : JobExecution) (deadline : Instant)

def Watch.Overflowed (s : Watch) (stream : LogStream) : Prop :=
  execution.logLimitBytes < (s.captures stream).produced

def Watch.Passes (s : Watch) (selected : Selected) (fails : Option String) (stream : LogStream) :
    Prop :=
  match s.stage with
  | .looping => ¬deadline ≤ s.now
  | .selecting _ =>
    match selected with
    | .canceled => False
    | .logLimit streamName _ => streamName = stream.name
    | .slept => True
  | .waiting => fails = none ∧ s.exited = none
  | .terminating _ | .awaiting _ _ | .returned _ => True

def Watch.Heeds (s : Watch) : Action → Prop
  | .write stream bytes => s.stage.Reports stream ∨
      (s.captures stream).produced + bytes ≤ execution.logLimitBytes
  | .execute selected fails =>
    ∀ stream, s.Overflowed execution stream → s.Passes deadline selected fails stream
  | _ => True

def Watch.Heeding (s : Watch) : List Action → Prop
  | [] => True
  | a :: as => s.Heeds execution deadline a ∧
      ∀ s', s.step execution deadline a = some s' → s'.Heeding as

def Watch.Reported (s : Watch) : Prop :=
  ∀ stream, s.Overflowed execution stream → s.stage.Reports stream

end

section

variable {execution : JobExecution} {deadline : Instant} {s s' : Watch} {a : Action}

lemma produced_captureOutput (limitBytes : ℕ) (streamName : String) (read : ℕ) (capture : Capture) :
    (captureOutput limitBytes streamName read capture).1.produced = capture.produced := by
  simp only [captureOutput]
  split_ifs <;> rfl

lemma Watch.captures_setCapture {stream stream' : LogStream} {capture : Capture} :
    (s.setCapture stream capture).captures stream' =
      if stream' = stream then capture else s.captures stream' := rfl

lemma Watch.step_act (h : s.step execution deadline a = some s') :
    s.act execution deadline a = some s' := by
  unfold Watch.step at h
  cases hstage : s.stage with
  | returned outcome =>
    rw [hstage] at h
    cases h
  | _ =>
    rw [hstage] at h
    exact h

def Action.Quiet : Action → Prop
  | .write _ _ | .execute _ _ => False
  | _ => True

inductive Watch.Stepped (execution : JobExecution) (deadline : Instant) (s : Watch) :
    Action → Watch → Prop
  | wrote {stream : LogStream} {bytes : ℕ} {s' : Watch} (stage : s'.stage = s.stage)
      (produced : (s'.captures stream).produced = (s.captures stream).produced + bytes)
      (others : ∀ stream' ≠ stream, (s'.captures stream').produced = (s.captures stream').produced) :
      Stepped execution deadline s (.write stream bytes) s'
  | quiet {a : Action} {s' : Watch} (quiet : a.Quiet) (stage : s'.stage = s.stage)
      (produced : ∀ stream, (s'.captures stream).produced = (s.captures stream).produced) :
      Stepped execution deadline s a s'
  | executed {selected : Selected} {fails : Option String} {s' : Watch}
      (h : s.execute execution deadline selected fails = some s') :
      Stepped execution deadline s (.execute selected fails) s'

lemma Watch.stepped (h : s.step execution deadline a = some s') :
    Stepped execution deadline s a s' := by
  have h := step_act h
  have hset {stream : LogStream} {capture : Capture}
      (hproduced : capture.produced = (s.captures stream).produced) (stream' : LogStream) :
      ((s.setCapture stream capture).captures stream').produced = (s.captures stream').produced := by
    by_cases hstream : stream' = stream <;> simp [captures_setCapture, hstream, hproduced]
  cases a with
  | write stream bytes =>
    obtain ⟨-, h⟩ := Option.ite_none_right_eq_some.mp h
    obtain rfl := Option.some.inj h
    refine .wrote rfl (by simp [captures_setCapture]) fun stream' hne => ?_
    simp [captures_setCapture, hne]
  | close stream =>
    obtain rfl := Option.some.inj h
    exact .quiet trivial rfl (hset rfl)
  | exit code =>
    obtain ⟨-, h⟩ := Option.ite_none_right_eq_some.mp h
    obtain rfl := Option.some.inj h
    exact .quiet trivial rfl fun _ => rfl
  | cancel =>
    obtain rfl := Option.some.inj h
    exact .quiet trivial rfl fun _ => rfl
  | wait duration =>
    obtain rfl := Option.some.inj h
    exact .quiet trivial rfl fun _ => rfl
  | capture stream read =>
    obtain ⟨-, h⟩ := Option.ite_none_right_eq_some.mp h
    obtain rfl := Option.some.inj h
    exact .quiet trivial rfl (hset (produced_captureOutput _ _ _ _))
  | captureFails stream error =>
    obtain ⟨-, h⟩ := Option.ite_none_right_eq_some.mp h
    obtain rfl := Option.some.inj h
    exact .quiet trivial rfl (hset rfl)
  | execute selected fails => exact .executed h

lemma Watch.executed {selected : Selected} {fails : Option String}
    (h : s.execute execution deadline selected fails = some s') :
    s'.captures = s.captures ∧ ∀ stream, s'.stage.Reports stream ↔
      s.stage.Reports stream ∧ s.Passes deadline selected fails stream := by
  unfold Watch.execute at h
  unfold Watch.Passes
  cases hstage : s.stage with
  | looping =>
    simp only [hstage] at h ⊢
    by_cases hlate : deadline ≤ s.now
    · rw [if_pos hlate] at h
      obtain rfl := Option.some.inj h
      exact ⟨rfl, fun stream => by simp [WatchStage.Reports, Ended.Reports, hlate]⟩
    · rw [if_neg hlate] at h
      obtain rfl := Option.some.inj h
      exact ⟨rfl, fun stream => by simp [WatchStage.Reports, hlate]⟩
  | selecting wake =>
    simp only [hstage] at h ⊢
    cases selected with
    | canceled =>
      obtain ⟨-, h⟩ := Option.ite_none_right_eq_some.mp h
      obtain rfl := Option.some.inj h
      exact ⟨rfl, fun stream => by simp [WatchStage.Reports, Ended.Reports]⟩
    | logLimit streamName message =>
      simp only [recvEvent] at h
      cases hevents : s.events with
      | nil =>
        rw [hevents] at h
        cases h
      | cons event events =>
        rw [hevents] at h
        obtain ⟨-, h⟩ := Option.ite_none_right_eq_some.mp h
        obtain rfl := Option.some.inj h
        exact ⟨rfl, fun stream => by simp [WatchStage.Reports, Ended.Reports]⟩
    | slept =>
      obtain ⟨-, h⟩ := Option.ite_none_right_eq_some.mp h
      obtain rfl := Option.some.inj h
      exact ⟨rfl, fun stream => by simp [WatchStage.Reports]⟩
  | waiting =>
    simp only [hstage] at h ⊢
    cases fails with
    | some source =>
      obtain rfl := Option.some.inj h
      exact ⟨rfl, fun stream => by simp [WatchStage.Reports]⟩
    | none =>
      cases hexited : s.exited with
      | some code =>
        simp only [hexited] at h
        obtain rfl := Option.some.inj h
        exact ⟨rfl, fun stream => by simp [WatchStage.Reports]⟩
      | none =>
        simp only [hexited] at h
        obtain rfl := Option.some.inj h
        exact ⟨rfl, fun stream => by simp [WatchStage.Reports]⟩
  | terminating ended =>
    simp only [hstage] at h ⊢
    obtain rfl := Option.some.inj h
    exact ⟨rfl, fun stream => by simp [WatchStage.Reports]⟩
  | awaiting stream code =>
    simp only [hstage] at h ⊢
    rcases hresult : (s.captures stream).result with _ | error | _
    · simp only [hresult] at h
      cases h
    · simp only [hresult] at h
      obtain rfl := Option.some.inj h
      exact ⟨rfl, fun stream => by simp [WatchStage.Reports]⟩
    · cases stream with
      | stdout =>
        simp only [hresult] at h
        obtain rfl := Option.some.inj h
        exact ⟨rfl, fun stream => by simp [WatchStage.Reports]⟩
      | stderr =>
        simp only [hresult] at h
        obtain rfl := Option.some.inj h
        exact ⟨rfl, fun stream => by simp [WatchStage.Reports, Ended.Reports]⟩
  | returned outcome =>
    simp only [hstage] at h
    cases h

lemma Watch.reported_step (h : s.step execution deadline a = some s') :
    s'.Reported execution ↔ s.Reported execution ∧ s.Heeds execution deadline a := by
  unfold Watch.Reported Watch.Overflowed
  cases stepped h with
  | @wrote stream bytes s' hstage hproduced hothers =>
    simp only [hstage, Heeds]
    constructor
    · intro hreported
      refine ⟨fun stream' hover => hreported stream' ?_, ?_⟩
      · by_cases hstream : stream' = stream
        · rw [hstream] at hover ⊢
          omega
        · rwa [hothers stream' hstream]
      · by_cases hover : (s.captures stream).produced + bytes ≤ execution.logLimitBytes
        · exact .inr hover
        · exact .inl (hreported stream (by omega))
    · rintro ⟨hreported, hheeds⟩ stream' hover
      by_cases hstream : stream' = stream
      · rw [hstream] at hover ⊢
        exact hheeds.resolve_right (by omega)
      · exact hreported stream' (by rwa [← hothers stream' hstream])
  | quiet hquiet hstage hproduced =>
    have hheeds : s.Heeds execution deadline a := by
      cases a with
      | write stream bytes => exact hquiet.elim
      | execute selected fails => exact hquiet.elim
      | _ => trivial
    simp only [hstage, hproduced, hheeds, and_true]
  | executed hexecuted =>
    obtain ⟨hcaptures, hreports⟩ := executed hexecuted
    simp only [hcaptures, hreports, Heeds, Watch.Overflowed]
    exact ⟨fun hboth => ⟨fun stream h => (hboth stream h).1, fun stream h => (hboth stream h).2⟩,
      fun hboth stream h => ⟨hboth.1 stream h, hboth.2 stream h⟩⟩

lemma Watch.reported_run {as : List Action} (h : s.run execution deadline as = some s') :
    s'.Reported execution ↔ s.Reported execution ∧ s.Heeding execution deadline as := by
  induction as generalizing s with
  | nil =>
    obtain rfl := Option.some.inj h
    simp [Heeding]
  | cons a as ih =>
    obtain ⟨t, ht, h⟩ := Option.bind_eq_some_iff.mp h
    rw [ih h, reported_step ht, and_assoc]
    simp [Heeding, ht]

end

def LogStream.truncated : LogStream → JobOutputMetadata → Bool
  | .stdout, outputMetadata => outputMetadata.stdout.truncated
  | .stderr, outputMetadata => outputMetadata.stderr.truncated

def LimitsEnforced (execution : JobExecution) (s : Watch) (metadata : JobMetadata) : Prop :=
  (∃ stream, s.Overflowed execution stream) →
    metadata.status ≠ .success ∧
    (metadata.status = .timedOut ∨ metadata.status = .canceled ∨
      metadata.terminalReason = some .logLimitExceeded) ∧
    ∀ stream, s.Overflowed execution stream → stream.truncated metadata.outputMetadata = true

/-- What metadata say once `execute_process` has returned in this way. -/
structure FinishedAs (outcome : Except JobError Ended) (metadata : JobMetadata) : Prop where
  truncated : ∀ stream, stream.truncated metadata.outputMetadata = true ↔
    (WatchStage.returned outcome).Reports stream
  logLimit : ∀ streamName message, outcome = .ok (.logLimit streamName message) →
    metadata.status = .failed ∧ metadata.terminalReason = some .logLimitExceeded

def FinishesAs (outcome : Except JobError Ended) : RunnerCall → Prop
  | .persistMetadata (.finish _) _ metadata => FinishedAs outcome metadata
  | _ => True

section

variable {rt : Runtime} {m : ℕ} {execution : JobExecution} {outcome : Except JobError Ended}
variable {ended : Ended}

lemma finishesAs_of_working {c : RunnerCall} (h : c.Working) : FinishesAs outcome c := by
  cases c with
  | persistMetadata writer jobId metadata => exact h.elim
  | _ => trivial

lemma buildOutputMetadata_finishesAs {jobId : String} {stdoutTruncated stderrTruncated : Bool}
    {outputs : BTreeMap JobOutput} {f : JobOutputMetadata → RunnerTask Unit}
    (hf : ∀ outputMetadata : JobOutputMetadata,
      outputMetadata.stdout.truncated = stdoutTruncated →
      outputMetadata.stderr.truncated = stderrTruncated →
      (f outputMetadata).Only (FinishesAs outcome)) :
    (buildOutputMetadata jobId stdoutTruncated stderrTruncated outputs >>= f).Only
      (FinishesAs outcome) := by
  refine (congrArg (Program.Only (FinishesAs outcome))
    (Program.bind_assoc (request (.fileSize jobId "stdout.log")) _ f)).mpr ?_
  refine .bind (Program.Only.request_iff.mpr trivial) fun stdout => ?_
  refine (congrArg (Program.Only (FinishesAs outcome))
    (Program.bind_assoc (request (.fileSize jobId "stderr.log")) _ f)).mpr ?_
  exact .bind (Program.Only.request_iff.mpr trivial) fun stderr => hf _ rfl rfl

lemma cleanup_finishesAs {c : RunnerCall} (hc : FinishesAs outcome c) :
    ((request c).attempt >>= fun _ => pure () : RunnerTask Unit).Only (FinishesAs outcome) :=
  .bind (.attempt (Program.Only.request_iff.mpr hc)) fun _ => Program.Only.pure _

lemma reports_iff_truncated (ended : Ended) (stream : LogStream) :
    (match stream with
      | .stdout => ended.outcome.stdoutTruncated
      | .stderr => ended.outcome.stderrTruncated) = true ↔ ended.Reports stream := by
  cases ended with
  | exited code =>
    by_cases hcode : code = some 0 <;> cases stream <;> simp [Ended.outcome, Ended.Reports, hcode]
  | logLimit streamName message =>
    cases stream <;> simp [Ended.outcome, Ended.Reports, LogStream.name]
  | _ => cases stream <;> simp [Ended.outcome, Ended.Reports]

lemma finishOk_finishesAs {finishedAt : Timestamp} {finalStatus : RunnerJobStatus}
    {reason : TerminalReason} {category : Option FailureCategory} {outputs : BTreeMap JobOutput}
    (hlimit : ∀ streamName message, ended = .logLimit streamName message →
      finalStatus = .failed ∧ reason = .logLimitExceeded) :
    (finishOk rt m execution finishedAt ended.outcome finalStatus reason category outputs).Only
      (FinishesAs (.ok ended)) := by
  refine buildOutputMetadata_finishesAs fun outputMetadata hstdout hstderr => ?_
  refine .bind (.attempt (Program.Only.request_iff.mpr ⟨fun stream => ?_, ?_⟩)) fun _ => ?_
  · rw [WatchStage.Reports, ← reports_iff_truncated]
    cases stream with
    | stdout => exact iff_of_eq (congrArg (· = true) hstdout)
    | stderr => exact iff_of_eq (congrArg (· = true) hstderr)
  · intro streamName message hended
    obtain ⟨rfl, rfl⟩ := hlimit streamName message (Except.ok.inj hended)
    exact ⟨rfl, rfl⟩
  · exact .ite (fun _ => cleanup_finishesAs trivial) fun _ => Program.Only.done _

lemma finishError_finishesAs {finishedAt : Timestamp} {error : JobError} :
    (finishError m execution finishedAt error).Only (FinishesAs (.error error)) := by
  refine buildOutputMetadata_finishesAs fun outputMetadata hstdout hstderr => ?_
  refine .bind (.attempt (Program.Only.request_iff.mpr ⟨fun stream => ?_, ?_⟩)) fun _ => ?_
  · cases stream <;> simp [LogStream.truncated, hstdout, hstderr, WatchStage.Reports]
  · exact fun _ _ h => by cases h
  · exact cleanup_finishesAs trivial

lemma finishOutcome_finishesAs {finishedAt : Timestamp} :
    (finishOutcome rt m execution finishedAt ended.outcome).Only (FinishesAs (.ok ended)) := by
  refine .ite (fun hsuccess => ?_) fun _ => finishOk_finishesAs ?_
  · have hexited : ∀ streamName message, ended ≠ .logLimit streamName message := by
      rintro streamName message rfl
      cases hsuccess
    refine .bind ((registerOutputs_only _ _ _).mono fun _ => finishesAs_of_working) ?_
    rintro ⟨outputs, _ | error⟩
    · exact finishOk_finishesAs fun streamName message h => absurd h (hexited streamName message)
    · exact finishOk_finishesAs fun streamName message h => absurd h (hexited streamName message)
  · rintro streamName message rfl
    exact ⟨rfl, rfl⟩

lemma finishJob_finishesAs (ended : Ended) :
    (finishJob rt m execution (.ok ended.outcome)).Only (FinishesAs (.ok ended)) := by
  refine .bind (now_only.mono fun _ => finishesAs_of_working) fun finishedAt => ?_
  exact .bind finishOutcome_finishesAs fun _ => Program.Only.request_iff.mpr trivial

lemma finishJob_error_finishesAs (rt : Runtime) (error : JobError) :
    (finishJob rt m execution (.error error)).Only (FinishesAs (.error error)) := by
  refine .bind (now_only.mono fun _ => finishesAs_of_working) fun finishedAt => ?_
  exact .bind finishError_finishesAs fun _ => Program.Only.request_iff.mpr trivial

lemma ignoring_only {α β γ : Type} {Q : RunnerCall → Prop} {p : RunnerTask α} {b : β}
    {f : Except JobError β → RunnerTask γ} (hp : p.Only Q) (hf : (f (.ok b)).Only Q) :
    ((p.attempt >>= fun _ => pure b).attempt >>= f).Only Q := by
  induction p with
  | done x => exact hf
  | call c next ih => exact ⟨hp.1, fun x => ih x (hp.2 x)⟩

lemma transitionMetadataStatus_finishesAs {jobId : String} {status : RunnerJobStatus} :
    (transitionMetadataStatus rt (.canceling m) jobId none status).Only (FinishesAs outcome) := by
  refine .bind (.bind (Program.Only.request_iff.mpr trivial) fun file => ?_) fun metadata => ?_
  · cases file with
    | metadata metadata => exact Program.Only.pure _
    | _ => exact Program.Only.fail _
  · refine .ite (fun _ => Program.Only.pure _) fun _ => ?_
    refine .ite (fun _ => Program.Only.pure _) fun _ => ?_
    exact .ite (fun _ => Program.Only.pure _) fun _ => Program.Only.request_iff.mpr trivial

lemma afterProcess_finishesAs (outcome : Except JobError Ended) :
    (afterProcess rt m execution outcome).Only (FinishesAs outcome) := by
  cases outcome with
  | error error => exact finishJob_error_finishesAs rt error
  | ok ended =>
    cases ended with
    | canceled =>
      exact ignoring_only transitionMetadataStatus_finishesAs (finishJob_finishesAs .canceled)
    | timedOut => exact finishJob_finishesAs .timedOut
    | logLimit streamName message => exact finishJob_finishesAs (.logLimit streamName message)
    | exited code => exact finishJob_finishesAs (.exited code)

def Finished (rt : Runtime) (m : ℕ) (execution : JobExecution) (outcome : Except JobError Ended)
    (os : List Outcome) (store : RunnerStore) (metadata : JobMetadata) : Prop :=
  ∃ jobId written, (.persistMetadata (.finish m) jobId metadata, written) ∈
    ((afterProcess rt m execution outcome).play (Program.logged (RunnerCall.exec rt)) os
      (store, [])).store.2

lemma Finished.finishedAs {os : List Outcome} {store : RunnerStore} {metadata : JobMetadata}
    (h : Finished rt m execution outcome os store metadata) : FinishedAs outcome metadata := by
  obtain ⟨jobId, written, h⟩ := h
  let FinishedLog (s : RunnerStore × RunnerLog) : Prop := ∀ entry ∈ s.2, FinishesAs outcome entry.1
  have hkeeps : ∀ c o s, FinishesAs outcome c → FinishedLog s →
      FinishedLog (Program.logged (RunnerCall.exec rt) c o s).2 := by
    intro c o s hc hs entry hentry
    rcases List.mem_cons.mp hentry with rfl | hentry
    · exact hc
    · exact hs entry hentry
  have hstart : FinishedLog (store, []) := fun _ hentry => by cases hentry
  exact Program.play_only hkeeps (afterProcess_finishesAs outcome) hstart os _ h

lemma limitsEnforced_iff {s : Watch} (hstage : s.stage = .returned outcome)
    {metadata : JobMetadata} (h : FinishedAs outcome metadata) :
    LimitsEnforced execution s metadata ↔ s.Reported execution := by
  rw [Watch.Reported, hstage]
  constructor
  · intro henforced stream hover
    exact (h.truncated stream).mp ((henforced ⟨stream, hover⟩).2.2 stream hover)
  · rintro hreported ⟨stream, hover⟩
    have hlimit : ∃ streamName message, outcome = .ok (.logLimit streamName message) := by
      have hreports := hreported stream hover
      cases outcome with
      | error error => exact hreports.elim
      | ok ended =>
        cases ended with
        | logLimit streamName message => exact ⟨streamName, message, rfl⟩
        | _ => exact hreports.elim
    obtain ⟨streamName, message, houtcome⟩ := hlimit
    obtain ⟨hstatus, hreason⟩ := h.logLimit streamName message houtcome
    refine ⟨by rw [hstatus]; decide, .inr (.inr hreason), fun stream hover => ?_⟩
    exact (h.truncated stream).mpr (hreported stream hover)

/-- In a run that has returned, the limits are enforced if and only if each of its steps heeds
them. -/
theorem limits_enforced_iff {deadline now : Instant} {actions : List Action} {s : Watch}
    (hrun : (Watch.start now).run execution deadline actions = some s)
    (hstage : s.stage = .returned outcome) {os : List Outcome} {store : RunnerStore}
    {metadata : JobMetadata} (hfinished : Finished rt m execution outcome os store metadata) :
    LimitsEnforced execution s metadata ↔ (Watch.start now).Heeding execution deadline actions := by
  rw [limitsEnforced_iff hstage hfinished.finishedAs, Watch.reported_run hrun]
  exact and_iff_right fun _ _ => trivial

end

structure Capture.Sound (limitBytes : ℕ) (capture : Capture) : Prop where
  read : capture.read ≤ capture.produced
  written : capture.written ≤ limitBytes
  faithful : capture.result = none → capture.written = capture.read

def Watch.Justified (execution : JobExecution) (s : Watch) (event : LogLimitEvent) : Prop :=
  ∃ stream : LogStream, event =
    ⟨stream.name, logLimitMessage stream.name execution.logLimitBytes⟩ ∧ s.Overflowed execution stream

structure Watch.Sound (execution : JobExecution) (s : Watch) : Prop where
  captures : ∀ stream, (s.captures stream).Sound execution.logLimitBytes
  events : ∀ event ∈ s.events, s.Justified execution event
  ended : ∀ streamName message, s.stage = .terminating (.logLimit streamName message) ∨
    s.stage = .returned (.ok (.logLimit streamName message)) →
    s.Justified execution ⟨streamName, message⟩

section

variable {execution : JobExecution} {deadline : Instant} {s s' : Watch} {a : Action}

lemma captureOutput_sound {limitBytes read : ℕ} (streamName : String) {capture : Capture}
    (hcapture : capture.Sound limitBytes) (hresult : capture.result = none)
    (hread : capture.read + read ≤ capture.produced) :
    (captureOutput limitBytes streamName read capture).1.Sound limitBytes ∧
      ∀ event ∈ (captureOutput limitBytes streamName read capture).2.toList,
        event = ⟨streamName, logLimitMessage streamName limitBytes⟩ ∧
          limitBytes < capture.produced := by
  obtain ⟨hproduced, hwritten, hfaithful⟩ := hcapture
  have hsame := hfaithful hresult
  simp only [captureOutput]
  by_cases hend : read = 0
  · rw [if_pos hend]
    exact ⟨⟨hproduced, hwritten, fun h => by cases h⟩, fun _ h => by cases h⟩
  · rw [if_neg hend]
    by_cases hfull : limitBytes - capture.written = 0
    · rw [if_pos hfull]
      refine ⟨⟨hread, hwritten, fun h => by cases h⟩, fun event hevent => ?_⟩
      exact ⟨List.mem_singleton.mp hevent, by omega⟩
    · rw [if_neg hfull]
      by_cases hcut : min (limitBytes - capture.written) read < read
      · rw [if_pos hcut]
        refine ⟨⟨hread, ?_, fun h => by cases h⟩, fun event hevent => ?_⟩
        · change capture.written + min (limitBytes - capture.written) read ≤ limitBytes
          omega
        · exact ⟨List.mem_singleton.mp hevent, by omega⟩
      · rw [if_neg hcut]
        refine ⟨⟨hread, ?_, fun _ => ?_⟩, fun _ h => by cases h⟩
        · change capture.written + min (limitBytes - capture.written) read ≤ limitBytes
          omega
        · change capture.written + min (limitBytes - capture.written) read = capture.read + read
          omega

lemma Watch.produced_mono (h : s.step execution deadline a = some s') (stream : LogStream) :
    (s.captures stream).produced ≤ (s'.captures stream).produced := by
  cases stepped h with
  | @wrote stream' bytes s' hstage hproduced hothers =>
    by_cases hstream : stream = stream'
    · rw [hstream, hproduced]
      exact Nat.le_add_right ..
    · rw [hothers stream hstream]
  | quiet hquiet hstage hproduced => rw [hproduced]
  | executed hexecuted => rw [(executed hexecuted).1]

lemma Watch.Justified.step (h : s.step execution deadline a = some s') {event : LogLimitEvent}
    (hevent : s.Justified execution event) : s'.Justified execution event := by
  obtain ⟨stream, hname, hover⟩ := hevent
  exact ⟨stream, hname, Nat.lt_of_lt_of_le hover (produced_mono h stream)⟩

lemma Watch.captures_sound (hs : s.Sound execution) {stream : LogStream} {capture : Capture}
    (hcapture : capture.Sound execution.logLimitBytes) (stream' : LogStream) :
    ((s.setCapture stream capture).captures stream').Sound execution.logLimitBytes := by
  rw [captures_setCapture]
  by_cases hstream : stream' = stream
  · rw [if_pos hstream]
    exact hcapture
  · rw [if_neg hstream]
    exact hs.captures stream'

lemma Watch.execute_sound {selected : Selected} {fails : Option String}
    (hs : s.Sound execution) (h : s.execute execution deadline selected fails = some s') :
    (∀ event ∈ s'.events, event ∈ s.events) ∧
      ∀ streamName message, s'.stage = .terminating (.logLimit streamName message) ∨
        s'.stage = .returned (.ok (.logLimit streamName message)) →
        s.Justified execution ⟨streamName, message⟩ := by
  unfold Watch.execute at h
  cases hstage : s.stage with
  | looping =>
    simp only [hstage] at h
    split_ifs at h <;> obtain rfl := Option.some.inj h <;> simp
  | selecting wake =>
    simp only [hstage] at h
    cases selected with
    | canceled =>
      obtain ⟨-, h⟩ := Option.ite_none_right_eq_some.mp h
      obtain rfl := Option.some.inj h
      simp
    | logLimit streamName message =>
      simp only [recvEvent] at h
      cases hevents : s.events with
      | nil =>
        rw [hevents] at h
        cases h
      | cons event events =>
        rw [hevents] at h
        obtain ⟨hevent, h⟩ := Option.ite_none_right_eq_some.mp h
        obtain rfl := Option.some.inj h
        refine ⟨fun event hmem => List.mem_cons_of_mem _ hmem, ?_⟩
        rintro streamName' message' (hended | hended)
        · obtain ⟨rfl, rfl⟩ : streamName = streamName' ∧ message = message' := by
            simpa using hended
          exact hevent ▸ hs.events event (hevents ▸ List.mem_cons_self)
        · cases hended
    | slept =>
      obtain ⟨-, h⟩ := Option.ite_none_right_eq_some.mp h
      obtain rfl := Option.some.inj h
      simp
  | waiting =>
    simp only [hstage] at h
    cases fails with
    | some source =>
      obtain rfl := Option.some.inj h
      simp
    | none =>
      cases hexited : s.exited with
      | some code =>
        simp only [hexited] at h
        obtain rfl := Option.some.inj h
        simp
      | none =>
        simp only [hexited] at h
        obtain rfl := Option.some.inj h
        simp
  | terminating ended =>
    simp only [hstage] at h
    obtain rfl := Option.some.inj h
    refine ⟨fun _ hevent => hevent, fun streamName message hended => hs.ended _ _ (.inl ?_)⟩
    rw [hstage]
    simpa using hended
  | awaiting stream code =>
    simp only [hstage] at h
    rcases hresult : (s.captures stream).result with _ | error | _
    · simp only [hresult] at h
      cases h
    · simp only [hresult] at h
      obtain rfl := Option.some.inj h
      simp
    · cases stream with
      | stdout =>
        simp only [hresult] at h
        obtain rfl := Option.some.inj h
        simp
      | stderr =>
        simp only [hresult] at h
        obtain rfl := Option.some.inj h
        simp
  | returned outcome =>
    simp only [hstage] at h
    cases h

lemma Watch.step_sound (hs : s.Sound execution) (h : s.step execution deadline a = some s') :
    s'.Sound execution := by
  have hact := step_act h
  have hkeeps (hcaptures : ∀ stream, (s'.captures stream).Sound execution.logLimitBytes)
      (hevents : s'.events = s.events) (hstage : s'.stage = s.stage) : s'.Sound execution := by
    refine ⟨hcaptures, fun event hevent => ?_, fun streamName message hended => ?_⟩
    · exact (hs.events event (hevents ▸ hevent)).step h
    · exact (hs.ended streamName message (hstage ▸ hended)).step h
  cases a with
  | write stream bytes =>
    obtain ⟨-, hact⟩ := Option.ite_none_right_eq_some.mp hact
    obtain rfl := Option.some.inj hact
    obtain ⟨hread, hwritten, hfaithful⟩ := hs.captures stream
    exact hkeeps (captures_sound hs ⟨Nat.le_add_right_of_le hread, hwritten, hfaithful⟩) rfl rfl
  | close stream =>
    obtain rfl := Option.some.inj hact
    obtain ⟨hread, hwritten, hfaithful⟩ := hs.captures stream
    exact hkeeps (captures_sound hs ⟨hread, hwritten, hfaithful⟩) rfl rfl
  | exit code =>
    obtain ⟨-, hact⟩ := Option.ite_none_right_eq_some.mp hact
    obtain rfl := Option.some.inj hact
    exact hkeeps hs.captures rfl rfl
  | cancel =>
    obtain rfl := Option.some.inj hact
    exact hkeeps hs.captures rfl rfl
  | wait duration =>
    obtain rfl := Option.some.inj hact
    exact hkeeps hs.captures rfl rfl
  | capture stream read =>
    obtain ⟨⟨hresult, -, hread, -⟩, hact⟩ := Option.ite_none_right_eq_some.mp hact
    obtain rfl := Option.some.inj hact
    obtain ⟨hcapture, hsent⟩ :=
      captureOutput_sound stream.name (hs.captures stream) hresult hread
    refine ⟨captures_sound hs hcapture, fun event hevent => ?_, fun streamName message hended =>
      (hs.ended streamName message hended).step h⟩
    rcases List.mem_append.mp hevent with hevent | hevent
    · exact (hs.events event hevent).step h
    · obtain ⟨hname, hover⟩ := hsent event hevent
      have hjustified : s.Justified execution event := ⟨stream, hname, hover⟩
      exact hjustified.step h
  | captureFails stream error =>
    obtain ⟨-, hact⟩ := Option.ite_none_right_eq_some.mp hact
    obtain rfl := Option.some.inj hact
    obtain ⟨hread, hwritten, -⟩ := hs.captures stream
    exact hkeeps (captures_sound hs ⟨hread, hwritten, fun h => by cases h⟩) rfl rfl
  | execute selected fails =>
    obtain ⟨hcaptures, -⟩ := executed hact
    obtain ⟨hevents, hended⟩ := execute_sound hs hact
    refine ⟨fun stream => by rw [hcaptures]; exact hs.captures stream, fun event hevent => ?_,
      fun streamName message h' => (hended streamName message h').step h⟩
    exact (hs.events event (hevents event hevent)).step h

lemma Watch.run_sound {as : List Action} (hs : s.Sound execution)
    (h : s.run execution deadline as = some s') : s'.Sound execution := by
  induction as generalizing s with
  | nil => exact Option.some.inj h ▸ hs
  | cons a as ih =>
    obtain ⟨t, ht, h⟩ := Option.bind_eq_some_iff.mp h
    exact ih (step_sound hs ht) h

theorem log_limit_justified {now : Instant} {actions : List Action}
    (hrun : (Watch.start now).run execution deadline actions = some s) :
    (∀ stream, (s.captures stream).written ≤ execution.logLimitBytes) ∧
      ∀ streamName message, s.stage = .returned (.ok (.logLimit streamName message)) →
        ∃ stream : LogStream, streamName = stream.name ∧ s.Overflowed execution stream := by
  have hstart : (Watch.start now).Sound execution := by
    refine ⟨fun _ => ⟨Nat.le_refl 0, Nat.zero_le _, fun _ => rfl⟩, fun _ h => (List.not_mem_nil h).elim,
      ?_⟩
    rintro streamName message (hended | hended)
    · cases hended
    · cases hended
  have hsound := Watch.run_sound hstart hrun
  refine ⟨fun stream => (hsound.captures stream).written, fun streamName message hended => ?_⟩
  obtain ⟨stream, hname, hover⟩ := hsound.ended streamName message (.inr hended)
  exact ⟨stream, congrArg LogLimitEvent.streamName hname, hover⟩

end

def printingExecution : JobExecution := { overflowingExecution with manifest := sampleManifest }

def printingActions : List Action :=
  [.execute .slept none, .write .stdout 11, .close .stdout, .close .stderr, .exit (some 0),
    .wait 25000000, .execute .slept none, .execute .slept none, .capture .stdout 11,
    .capture .stderr 0, .execute .slept none, .execute .slept none]

def capturedActions : List Action :=
  [.execute .slept none, .write .stdout 11, .capture .stdout 11,
    .execute (.logLimit "stdout" (logLimitMessage "stdout" 10)) none, .execute .slept none]

theorem limits_enforced_iff_captured :
    let message := logLimitMessage "stdout" 10
    ∃ s metadata, (Watch.start 0).run printingExecution 60000000000 capturedActions = some s ∧
      s.stage = .returned (.ok (.logLimit "stdout" message)) ∧
      Finished sampleRuntime 0 printingExecution (.ok (.logLimit "stdout" message))
        (List.replicate 8 {}) {} metadata ∧
      (LimitsEnforced printingExecution s metadata ↔
        (Watch.start 0).Heeding printingExecution 60000000000 capturedActions) := by
  intro message
  have hfinished : ∃ metadata, Finished sampleRuntime 0 printingExecution
      (.ok (.logLimit "stdout" message)) (List.replicate 8 {}) {} metadata :=
    ⟨_, _, _, .tail _ (.head _)⟩
  obtain ⟨metadata, hfinished⟩ := hfinished
  exact ⟨_, metadata, rfl, rfl, hfinished, limits_enforced_iff rfl rfl hfinished⟩

theorem printing_finishes_successfully :
    ¬∀ (rt : Runtime) (m : ℕ) (execution : JobExecution) (deadline now : Instant)
        (actions : List Action) (s : Watch) (outcome : Except JobError Ended) (os : List Outcome)
        (store : RunnerStore) (metadata : JobMetadata),
      (Watch.start now).run execution deadline actions = some s → s.stage = .returned outcome →
      Finished rt m execution outcome os store metadata → LimitsEnforced execution s metadata := by
  intro h
  have hfinished : ∃ metadata, Finished sampleRuntime 0 printingExecution (.ok (.exited (some 0)))
      (List.replicate 8 {}) {} metadata ∧ metadata.status = .success :=
    ⟨_, ⟨_, _, .tail _ (.tail _ (.head _))⟩, rfl⟩
  obtain ⟨metadata, hfinished, hsuccess⟩ := hfinished
  have henforced := h sampleRuntime 0 printingExecution 60000000000 0 printingActions _ _ _ _ metadata
    rfl rfl hfinished
  exact (henforced ⟨.stdout, (by decide : 10 < 11)⟩).1 hsuccess

end Janus.Runner
