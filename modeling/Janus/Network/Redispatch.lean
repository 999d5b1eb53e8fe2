import Janus.Network.Exchange

/-! What becomes of a job whose dispatch is repeated after the runner's answer was lost. -/

namespace Janus.Network

open Janus.Concurrency Janus.Data Janus.Server

variable {N : Setting} {x x' y y' : Exchange} {es : List ExchangeEvent} {e : ExchangeEvent}
variable {reported : Id → List JobRunOutput} {jobRunId : Id}

/-- The outputs of a run are the same whenever they are read, and a repeated request of the runner is
not hindered. -/
def Steady (N : Setting) (reported : Id → List JobRunOutput) (x : Exchange) : ExchangeEvent → Prop
  | .server e => ∀ id, x.server.call? e = some (.query (.jobOutputs id)) →
    x.db.jobOutputs id = reported id
  | .runner e => Runner.ReadBack N.rt x.runner e ∧ Runner.ReplayUnhindered x.runner e
  | .send _ => True

structure Exchange.Fresh (x : Exchange) (jobRunId : Id) : Prop where
  server : x.server.tasks = []
  runner : x.runner = Runner.RunnerPool.initial
  sent : x.sent = []
  unstarted : ∀ job ∈ x.db.jobRuns.rows, job.id = jobRunId → job.runnerRunId = none

def Exchange.Accepted (x : Exchange) (jobRunId : Id) (runId : String) : Prop :=
  ∃ m ∈ x.sent, m.jobRunId = jobRunId ∧ ∃ a ∈ x.answers, m.AnsweredBy a ∧ createdRun a = some runId

/-- All dispatches of the job with one key are one request; a dispatch that arrives once another has
been accepted gets the same run, unless the runner is shutting down; and a run that is answered is
the run that is stored. -/
structure Redispatches (N : Setting) (jobRunId : Id) (x : Exchange) : Prop where
  same : ∀ m ∈ x.sent, ∀ m' ∈ x.sent, m.jobRunId = jobRunId → m'.jobRunId = jobRunId →
    m.idempotencyKey = m'.idempotencyKey →
    Runner.hashRequest N.rt m.name m.body = Runner.hashRequest N.rt m'.name m'.body
  again : ∀ m ∈ x.sent, ∀ m' ∈ x.sent, m.jobRunId = jobRunId → m'.jobRunId = jobRunId →
    m.idempotencyKey = m'.idempotencyKey → ∀ (i : ℕ) (a : Runner.Answer) (runId : String),
    x.answers[i]? = some a → m.AnsweredBy a → createdRun a = some runId →
    ∀ a' ∈ x.answers, m'.AnsweredBy a' → i < a'.preceding → a'.shuttingDown = false →
      createdRun a' = some runId
  next : ∀ t ∈ x.server.tasks, ∀ runner name key body next,
    t.2 = .call (.runner runner (.createJobRun jobRunId name key body)) next →
    ∀ created, ∃ rest, next (.ok created) =
      .call (.jobRun jobRunId (.setJobRunStarted created.jobId created.startedAt)) rest
  recorded : ∀ job ∈ x.db.jobRuns.rows, job.id = jobRunId → ∀ runId ∈ job.runnerRunId,
    x.Accepted jobRunId runId

structure Later (x x' : Exchange) : Prop where
  db : x.db.Precedes x'.db
  answers : x.answers <+: x'.answers
  sent : x.sent ⊆ x'.sent

lemma Later.refl (x : Exchange) : Later x x :=
  ⟨.refl _, List.prefix_refl _, List.Subset.refl _⟩

lemma Later.trans {x'' : Exchange} (h : Later x x') (h' : Later x' x'') : Later x x'' :=
  ⟨h.db.trans h'.db, h.answers.trans h'.answers, List.Subset.trans h.sent h'.sent⟩

lemma server_precedes {app : AppState} {p p' : ServerPool} {d : ServerEvent}
    (h : (server app).apply p d = some p') : p.store.db.Precedes p'.store.db := by
  obtain ⟨r, rfl, -, rfl⟩ | ⟨i, o, r, c, next, rfl, -, -, rfl⟩ | ⟨i, r, v, rfl, -, rfl⟩ |
    ⟨rfl, rfl⟩ | ⟨v, rfl, rfl⟩ := System.apply_cases h
  · exact .refl _
  · exact exec_precedes rfl
  · exact .refl _
  · exact .refl _
  · cases v
    exact .refl _

lemma runner_answers {rt : Runner.Runtime} {p p' : Runner.RunnerPool} {d : Runner.RunnerEvent}
    (hp : Runner.Faithful rt p) (h : (Runner.runnerSystem rt).apply p d = some p') :
    p.store.history.answers <+: p'.store.history.answers := by
  rcases hp.sound.step_cases h with hs | hs | ⟨i, o, r, c, next, rfl, -, -, -, -, heffect⟩
  · rw [hs]
  · rw [hs]
    exact List.prefix_refl _
  · exact Runner.answers_prefix heffect

lemma Later.step (hfaithful : Runner.Faithful N.rt x.runner) (hsteady : Steady N reported x e)
    (h : N.apply x e = some x') : Runner.Faithful N.rt x'.runner ∧ Later x x' := by
  obtain ⟨d, p, rfl, -, hp, rfl⟩ | ⟨d, p, rfl, -, hp, rfl⟩ | ⟨i, m, rfl, -, rfl⟩ := apply_cases h
  · exact ⟨hfaithful, server_precedes hp, List.prefix_refl _, List.Subset.refl _⟩
  · exact ⟨hfaithful.apply hsteady.1 hsteady.2 hp, .refl _, runner_answers hfaithful hp,
      List.Subset.refl _⟩
  · exact ⟨hfaithful, .refl _, List.prefix_refl _, List.subset_cons_self _ _⟩

lemma Later.run (hfaithful : Runner.Faithful N.rt x.runner) (hsteady : N.Along (Steady N reported) es x)
    (h : N.run es x = some x') : Runner.Faithful N.rt x'.runner ∧ Later x x' := by
  induction es generalizing x with
  | nil =>
    obtain rfl := Option.some.inj h
    exact ⟨hfaithful, .refl _⟩
  | cons e es ih =>
    obtain ⟨z, hz, hrun⟩ := Option.bind_eq_some_iff.mp h
    obtain ⟨he, hes⟩ := hsteady z hz
    obtain ⟨hfaithful', hlater⟩ := Later.step hfaithful he hz
    obtain ⟨hfinal, hlater'⟩ := ih hfaithful' hes hrun
    exact ⟨hfinal, hlater.trans hlater'⟩

def serverSound (N : Setting) (reported : Id → List JobRunOutput) (jobRunId : Id) (x : Exchange)
    (p : ServerPool) : Prop :=
  System.Sound (server N.app) (fun s => RunAccepted jobRunId (x.Accepted jobRunId) s.db)
    (fun _ => dispatching N.app x.db reported jobRunId (x.Accepted jobRunId)) (fun _ _ _ => True) p

structure Consistent (N : Setting) (reported : Id → List JobRunOutput) (jobRunId : Id)
    (x y : Exchange) : Prop where
  sound : serverSound N reported jobRunId x y.server
  records : ∀ t ∈ y.server.tasks, Records t.2
  sent : ∀ m ∈ y.sent, m.jobRunId = jobRunId → ∃ runnerId body,
    Carries x.db reported jobRunId runnerId m.name body ∧ m.body = N.toVec (.object body)

lemma request?_eq_some {i : ℕ} {m : Message} (h : N.request? y i = some m) :
    ∃ r runner name key body next, y.server.tasks[i]? =
        some (r, .call (.runner runner (.createJobRun m.jobRunId name key body)) next) ∧
      m.name = name ∧ m.body = N.toVec (.object body) := by
  simp only [Setting.request?] at h
  split at h
  · next ht =>
    obtain rfl := Option.some.inj (Option.ite_none_right_eq_some.mp h).2
    exact ⟨_, _, _, _, _, _, ht, rfl, rfl⟩
  · exact (nomatch h)

lemma createdRun_eq_some {a : Runner.Answer} {runId : String} (h : createdRun a = some runId) :
    ∃ created, a.result = .ok created ∧ created.jobId = runId := by
  simp only [createdRun] at h
  split at h
  · next created hresult => exact ⟨created, hresult, Option.some.inj h⟩
  · exact (nomatch h)

lemma Consistent.heard (hc : Consistent N reported jobRunId x y) (hl : Later y x)
    (hrebuilt : RebuiltJob x.db reported jobRunId)
    (hrunner : ∀ job ∈ x.db.jobRuns.rows, job.id = jobRunId → job.runnerId = N.runnerId) {i : ℕ}
    {o : Outcome} (hheard : N.heard y (.step i o) = true) {r : Role} {runner : Runner} {name : String}
    {key : Id} {body : List (String × Value)}
    {next : Except String JobCreatedResponse → Server.Task Unit} {created : JobCreatedResponse}
    (ht : y.server.tasks[i]? =
      some (r, .call (.runner runner (.createJobRun jobRunId name key body)) next))
    (hx : ((Call.runner runner (.createJobRun jobRunId name key body)).exec N.app o
      y.server.store).1 = .ok created) : x.Accepted jobRunId created.jobId := by
  obtain ⟨job, hj, hid, hrunnerId, -⟩ :=
    hc.sound.before (dispatching_outline hrebuilt) (List.mem_of_getElem? ht) rfl
  have hrequest : N.request? y i =
      some ⟨jobRunId, name, N.keyText key, N.toVec (.object body)⟩ := by
    simp only [Setting.request?, ht]
    exact if_pos (hrunnerId.symm.trans (hrunner job hj hid))
  have hreceived : N.received o.reply = .ok created := hx
  simp only [Setting.heard, hrequest, hreceived, Bool.and_eq_true, List.contains_iff_mem,
    List.any_eq_true, decide_eq_true_eq] at hheard
  obtain ⟨hm, a, ha, hanswered, hcreated⟩ := hheard
  exact ⟨_, hl.sent hm, rfl, a, hl.answers.subset ha, hanswered, hcreated⟩

lemma Consistent.step (hc : Consistent N reported jobRunId x y) (hl : Later y x)
    (hrebuilt : RebuiltJob x.db reported jobRunId)
    (hrunner : ∀ job ∈ x.db.jobRuns.rows, job.id = jobRunId → job.runnerId = N.runnerId)
    (hsteady : Steady N reported y e) (h : N.apply y e = some y') :
    Consistent N reported jobRunId x y' := by
  obtain ⟨d, p, rfl, hheard, hp, rfl⟩ | ⟨d, p, rfl, -, -, rfl⟩ | ⟨i, m, rfl, hm, rfl⟩ :=
    apply_cases h
  · refine ⟨hc.sound.apply (dispatching_outline hrebuilt) ⟨hl.db, hsteady, ?_⟩ hp, ?_, hc.sent⟩
    · rintro i o r runner name key body next created rfl ht hx
      exact hc.heard hl hrebuilt hrunner hheard ht hx
    · exact System.forall_tasks_apply (Φ := fun _ q _ => Records q) hp (program_records N.app)
        (fun _ _ _ _ hq _ => hq.2 _) (fun _ _ hq => hq) hc.records
  · exact ⟨hc.sound, hc.records, hc.sent⟩
  · refine ⟨hc.sound, hc.records, fun m' hm' hj => ?_⟩
    rcases List.mem_cons.mp hm' with rfl | hm'
    · obtain ⟨r, runner, name, key, body, next, ht, rfl, hbody⟩ := request?_eq_some hm
      have hcarries := hc.sound.before (dispatching_outline hrebuilt) (List.mem_of_getElem? ht) hj
      exact ⟨runner.id, body, hcarries, hbody⟩
    · exact hc.sent m' hm' hj

lemma Consistent.run (hc : Consistent N reported jobRunId x y)
    (hfaithful : Runner.Faithful N.rt y.runner) (hrebuilt : RebuiltJob x.db reported jobRunId)
    (hrunner : ∀ job ∈ x.db.jobRuns.rows, job.id = jobRunId → job.runnerId = N.runnerId)
    (hsteady : N.Along (Steady N reported) es y) (h : N.run es y = some x) :
    Consistent N reported jobRunId x x := by
  induction es generalizing y with
  | nil => exact Option.some.inj h ▸ hc
  | cons e es ih =>
    have hlater := (Later.run hfaithful hsteady h).2
    obtain ⟨z, hz, hrun⟩ := Option.bind_eq_some_iff.mp h
    obtain ⟨he, hes⟩ := hsteady z hz
    exact ih (hc.step hlater hrebuilt hrunner he hz) (Later.step hfaithful he hz).1 hes hrun

/-- A job whose inputs are rebuilt from what the server has stored is dispatched again as itself. -/
theorem redispatches (hfresh : y.Fresh jobRunId) (hrun : N.run es y = some x)
    (hsteady : N.Along (Steady N reported) es y)
    (hrunner : ∀ job ∈ x.db.jobRuns.rows, job.id = jobRunId → job.runnerId = N.runnerId)
    (hrebuilt : RebuiltJob x.db reported jobRunId) : Redispatches N jobRunId x := by
  have hstart : Consistent N reported jobRunId x y := by
    refine ⟨⟨fun job hj hid runId hr => ?_, ?_, ?_⟩, ?_, ?_⟩
    · exact absurd hr (by rw [hfresh.unstarted job hj hid]; exact Option.not_mem_none runId)
    · exact fun t ht => absurd (hfresh.server ▸ ht) List.not_mem_nil
    · rw [hfresh.server]
      exact .nil
    · exact fun t ht => absurd (hfresh.server ▸ ht) List.not_mem_nil
    · exact fun m hm => absurd (hfresh.sent ▸ hm) List.not_mem_nil
  have hfaithful : Runner.Faithful N.rt y.runner := by
    rw [hfresh.runner]
    exact .initial
  have hconsistent := hstart.run hfaithful hrebuilt hrunner hsteady hrun
  have hend := (Later.run hfaithful hsteady hrun).1
  have hsame : ∀ m ∈ x.sent, ∀ m' ∈ x.sent, m.jobRunId = jobRunId → m'.jobRunId = jobRunId →
      m.name = m'.name ∧ m.body = m'.body := by
    intro m hm m' hm' hj hj'
    obtain ⟨_, body, hcarries, hbody⟩ := hconsistent.sent m hm hj
    obtain ⟨_, body', hcarries', hbody'⟩ := hconsistent.sent m' hm' hj'
    obtain ⟨hname, rfl⟩ := hcarries.unique hcarries'
    exact ⟨hname, hbody.trans hbody'.symm⟩
  refine ⟨?_, ?_, ?_, hconsistent.sound.1⟩
  · intro m hm m' hm' hj hj' _
    obtain ⟨hname, hbody⟩ := hsame m hm m' hm' hj hj'
    rw [hname, hbody]
  · intro m hm m' hm' hj hj' hkey i a runId ha hanswered hcreated a' ha' hanswered' hi hup
    obtain ⟨hname, hbody⟩ := hsame m hm m' hm' hj hj'
    obtain ⟨created, hresult, rfl⟩ := createdRun_eq_some hcreated
    have hrepeats : a'.Repeats a :=
      ⟨hanswered.1.trans (hname.trans hanswered'.1.symm),
        hanswered.2.1.trans (hkey.trans hanswered'.2.1.symm),
        hanswered.2.2.trans (hbody.trans hanswered'.2.2.symm)⟩
    obtain ⟨created', hresult', hrunId⟩ :=
      hend.answersAgain i a created ha hresult a' ha' hi hrepeats hup
    simp only [createdRun, hresult', hrunId]
  · intro t ht runner name key body next hcall
    have hrecords := hconsistent.records t ht
    rw [hcall] at hrecords
    exact hrecords.1

def buildManifest : Runner.JobManifest :=
  { name := "build", script := "/opt/janus/build", timeoutSeconds := 600, concurrency := .parallel
    inputs := .ofList [("commit", { kind := .string, required := false }),
      ("source", { kind := .artifact, required := false })] }

def twoFields (key value key' value' : String) : Bytes :=
  Runner.utf8 ("\x7b\"" ++ key ++ "\":\"" ++ value ++ "\",\"" ++ key' ++ "\":\"" ++ value' ++ "\"\x7d")

def commitBody : Bytes := twoFields "commit" "c0ffee" "janus_job_run_id" "10"

def sourceBody (artifactId : String) : Bytes := twoFields "janus_job_run_id" "10" "source" artifactId

def firstUpload : String := "art_0123456789abcdef0123456789abcdef"

def secondUpload : String := "art_fedcba9876543210fedcba9876543210"

def buildHashes : List (Bytes × String) :=
  [(Runner.utf8 "job" ++ 0 :: Runner.utf8 "10",
     "a372db075192dd8ed4bbdca03790e03378bf724ca239ea7904a83d9ab7dc5bf8"),
   (Runner.utf8 "build" ++ 0 :: commitBody,
     "67cae6349c23062b9aa768b72dbe5b2c3550fd861836db84b22d37525c33dd7f"),
   (Runner.utf8 "build" ++ 0 :: sourceBody firstUpload,
     "e7c3a69675b1f0d55f6340ab02ca9944626bbb59baddaa693d70003344096044"),
   (Runner.utf8 "build" ++ 0 :: sourceBody secondUpload,
     "51513e99cf1e6d99a5ba4ca2b49b7bea27d0081457a1263994ca6879a9681510"),
   ([], "e3b0c44298fc1c149afbf4c8996fb92427ae41e4649b934ca495991b7852b855")]

def buildRuntime : Runner.Runtime where
  host := Runner.sampleHost
  manifests := match Runner.ManifestStore.loadFromDir Runner.sampleHost
      [("/etc/janus/jobs/build.toml", buildManifest)] with
    | .ok store => store
    | .error _ => .empty
  config := ⟨"/var/lib/janus-runner", 10, true, true, 86400, 1000000, false⟩
  sha256Hex bytes := ((buildHashes.find? fun e => e.1 = bytes).map Prod.snd).getD ""
  parseJson body :=
    if body = commitBody then
      .ok (.object [("commit", .string "c0ffee"), ("janus_job_run_id", .string "10")])
    else if body = sourceBody firstUpload then
      .ok (.object [("janus_job_run_id", .string "10"), ("source", .string firstUpload)])
    else if body = sourceBody secondUpload then
      .ok (.object [("janus_job_run_id", .string "10"), ("source", .string secondUpload)])
    else .error "expected value"
  jsonText _ := ""
  readsBack _ := true

def buildSetting : Setting where
  app := sampleApp
  rt := buildRuntime
  runnerId := "runner"
  keyText := toString
  toVec
    | .object [(key, .string value), (key', .string value')] => twoFields key value key' value'
    | _ => []

def buildStart (inputs : BTreeMap WorkflowInputBinding) : Exchange where
  server := ⟨⟨{ sampleDatabase 1 (.single { samplePipeline with commitSha := some "c0ffee" })
      (.single (sampleJob 10 0)) .empty with
    workflowVersions := .single ⟨1, 1, 1, .ok ⟨"manual", []⟩,
      .ok ⟨[{ runnerId := "runner", runnerJobName := "build", inputs }]⟩, [sampleSchema]⟩
    serverArtifacts := .single ⟨5, "pipeline_source", 1, "source", "", 0, 5⟩ },
    [(5, [])], [], {}⟩, []⟩
  runner := Runner.RunnerPool.initial

def serverSteps (k : ℕ) : List ExchangeEvent := List.replicate k (.server (.step 0 {}))

def dispatchingBuild (before : List ExchangeEvent) (handling : List Runner.RunnerEvent)
    (reply : Except String HttpResponse) (after : ℕ) : List ExchangeEvent :=
  .server (.start .dispatch) :: before ++ .send 0 :: handling.map .runner ++
    .server (.step 0 { reply }) :: serverSteps after ++ [.server (.finish 0)]

def commitTwice : List ExchangeEvent :=
  Runner.booting.map .runner ++
  dispatchingBuild (serverSteps 7)
    (.start (.create 0 "build" "10" commitBody) :: Runner.steps 0 14 ++ [.finish 0])
    (.error "error sending request") 0 ++
  dispatchingBuild (serverSteps 7)
    (.start (.create 1 "build" "10" commitBody) :: Runner.steps 0 7 ++ [.finish 0])
    (.ok ⟨200, none, .ok { payload := .created ⟨"job_a372db075192dd8ed4bbdca03790e033", 0⟩ }⟩) 1

def Undisturbed (N : Setting) (x : Exchange) : ExchangeEvent → Prop
  | .server e => match x.server.call? e with
    | some (.query (.jobOutputs _)) => False
    | _ => True
  | .runner e => Runner.ReadBack N.rt x.runner e ∧ Runner.ReplayUnhindered x.runner e
  | .send _ => True

instance (e : ExchangeEvent) : Decidable (Undisturbed N x e) := by
  unfold Undisturbed
  repeat' split
  all_goals infer_instance

lemma Undisturbed.steady (h : Undisturbed N x e) : Steady N reported x e := by
  cases e with
  | server e =>
    rintro id hid
    simp only [Undisturbed, hid] at h
  | runner e => exact h
  | send i => trivial

theorem redispatches_commit : ∃ x,
    buildSetting.run commitTwice (buildStart (.ofList [("commit", .commit)])) = some x ∧
    (x.sent.length = 2 ∧ x.answers.map createdRun =
      List.replicate 2 (some "job_a372db075192dd8ed4bbdca03790e033")) ∧
    Redispatches buildSetting 10 x := by
  have hrun : (buildSetting.run commitTwice (buildStart (.ofList [("commit", .commit)]))).map
      (fun x => decide ((x.sent.length = 2 ∧ x.answers.map createdRun =
          List.replicate 2 (some "job_a372db075192dd8ed4bbdca03790e033")) ∧
        (∀ job ∈ x.db.jobRuns.rows, job.id = 10 → job.runnerId = "runner") ∧
        RebuiltJob x.db (fun _ => []) 10)) = some true := by
    decide +kernel
  obtain ⟨x, hx, hfacts⟩ := Option.map_eq_some_iff.mp hrun
  obtain ⟨hanswers, hrunner, hrebuilt⟩ := of_decide_eq_true hfacts
  have hundisturbed : buildSetting.Along (Undisturbed buildSetting) commitTwice
      (buildStart (.ofList [("commit", .commit)])) := by
    decide +kernel
  have hfresh : (buildStart (.ofList [("commit", .commit)])).Fresh 10 :=
    ⟨rfl, rfl, rfl, by decide +kernel⟩
  exact ⟨x, hx, hanswers, redispatches hfresh hx (hundisturbed.mono fun _ _ => Undisturbed.steady)
    hrunner hrebuilt⟩

def uploading (artifactId : String) : List ExchangeEvent :=
  serverSteps 9 ++
    .server (.step 0 { reply := .ok ⟨201, none, .ok { payload := .uploaded ⟨artifactId⟩ }⟩ }) ::
    serverSteps 1

def sourceDispatch (n : ℕ) (artifactId : String) (handling : ℕ)
    (reply : Except String HttpResponse) : List ExchangeEvent :=
  [.start (.upload [] none), .step 0 { artifactId }, .finish 0].map .runner ++
  dispatchingBuild (uploading artifactId)
    (.start (.create n "build" "10" (sourceBody artifactId)) :: Runner.steps 0 handling ++
      [.finish 0]) reply 0

def sourceTwice : List ExchangeEvent :=
  Runner.booting.map .runner ++
  sourceDispatch 0 firstUpload 16 (.error "error sending request") ++
  sourceDispatch 1 secondUpload 9 (.ok ⟨409, none, .ok {}⟩)

theorem source_not_redispatched : ∃ x y, y.Fresh 10 ∧ buildSetting.run sourceTwice y = some x ∧
    buildSetting.Along (Steady buildSetting fun _ => []) sourceTwice y ∧
    x.answers.map Runner.Answer.result =
      [.ok ⟨"job_a372db075192dd8ed4bbdca03790e033", .running, 0⟩, .error (.idempotencyConflict "10")] ∧
    (x.db.jobRuns.rows.map fun job => job.runnerRunId) = [none] ∧
    ¬ Redispatches buildSetting 10 x := by
  have hrun : (buildSetting.run sourceTwice (buildStart (.ofList [("source", .sourceArtifact)]))).map
      (fun x => decide ((x.answers.map Runner.Answer.result =
          [.ok ⟨"job_a372db075192dd8ed4bbdca03790e033", .running, 0⟩,
            .error (.idempotencyConflict "10")] ∧
          (x.db.jobRuns.rows.map fun job => job.runnerRunId) = [none]) ∧
        ¬ ∀ m ∈ x.sent, ∀ m' ∈ x.sent, m.jobRunId = 10 → m'.jobRunId = 10 →
          m.idempotencyKey = m'.idempotencyKey →
          Runner.hashRequest buildRuntime m.name m.body =
            Runner.hashRequest buildRuntime m'.name m'.body)) = some true := by
    decide +kernel
  obtain ⟨x, hx, hfacts⟩ := Option.map_eq_some_iff.mp hrun
  obtain ⟨⟨hanswers, hstored⟩, hdiffer⟩ := of_decide_eq_true hfacts
  have hundisturbed : buildSetting.Along (Undisturbed buildSetting) sourceTwice
      (buildStart (.ofList [("source", .sourceArtifact)])) := by
    decide +kernel
  exact ⟨x, _, ⟨rfl, rfl, rfl, by decide +kernel⟩, hx,
    hundisturbed.mono fun _ _ => Undisturbed.steady, hanswers, hstored, fun h => hdiffer h.same⟩

end Janus.Network
