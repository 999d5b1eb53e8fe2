import Janus.Runner.Runs

/-! What a shutdown that has returned promises for the rest of the life of the runner. -/

namespace Janus.Runner

open Janus.Concurrency Janus.Data Janus.Server RunnerStore

variable {rt : Runtime} {s s' : RunnerStore} {p p' : RunnerPool} {e : RunnerEvent}
variable {es es' : List RunnerEvent}

def Spawns (n : ℕ) (p : RunnerPool) (e : RunnerEvent) : Prop :=
  ∃ execution : JobExecution, p.call? e = some (.spawn n execution) ∨
    (∃ m, p.call? e = some (.launch m)) ∧ execution ∈ p.store.spawned ∧ execution.channel = n

/-- Each running job is signaled, and no request that has entered `running_jobs` after the shutdown
returned in `p` spawns a process. -/
structure ShutDown (p p' : RunnerPool) : Prop where
  signaled : ∀ e ∈ p'.store.runningJobs.entries, e.2.channel ∈ p'.store.signaled
  spawns : ∀ n, n ∉ p.store.inserted → ∀ e, ¬ Spawns n p' e

/-- No request enters `running_jobs` once `begin_shutdown` has locked it. -/
def NotAdmittedLate (p : RunnerPool) (e : RunnerEvent) : Prop :=
  match p.call? e with
  | some (.insertRunning _ manifest _) =>
    enforceConcurrency manifest p.store.runningJobs = .ok () → p.store.shutdownLocked = false
  | _ => True

lemma NotAdmittedLate.permitted (h : NotAdmittedLate p e) :
    Permitted { sealed := True } rt p e := by
  refine fun i o r c next he ht => ⟨fun h => h.elim, fun h => h.elim, fun _ n manifest jobId hc => ?_⟩
  subst he hc
  simpa only [NotAdmittedLate, Pool.call?, ht] using h

lemma shutdownReturned_step {c : RunnerCall} {x : Except JobError c.Result}
    (he : c.Effect rt s x s') (hs : s.shutdownReturned = true) : s'.shutdownReturned = true := by
  cases he with
  | persisted writer jobId metadata => rwa [(shutdown_release writer).1]
  | unpersisted writer jobId metadata => rwa [(shutdown_release writer).1]
  | unlockRunning => rfl
  | _ => exact hs

lemma inserted_sealed {c : RunnerCall} {x : Except JobError c.Result} (he : c.Effect rt s x s')
    (hp : ∀ n manifest jobId, c = .insertRunning n manifest jobId →
      enforceConcurrency manifest s.runningJobs = .ok () → s.shutdownLocked = false)
    (hs : s.shutdownLocked = true) {n : ℕ} (hn : n ∈ s'.inserted) : n ∈ s.inserted := by
  cases he with
  | persisted writer jobId metadata =>
    rw [inserted_release] at hn
    exact hn
  | unpersisted writer jobId metadata =>
    rw [inserted_release] at hn
    exact hn
  | admitted n' manifest jobId free =>
    rw [hp n' manifest jobId rfl free] at hs
    cases hs
  | _ => exact hn

/-- The shutdown has returned, and no request has entered `running_jobs` since. -/
structure Returned (rt : Runtime) (p p' : RunnerPool) : Prop where
  sound : RunnerSound { sealed := True } rt p'
  returned : p'.store.shutdownReturned = true
  inserted : ∀ n ∈ p'.store.inserted, n ∈ p.store.inserted

lemma Returned.apply {q : RunnerPool} (h : Returned rt p q) (hok : NotAdmittedLate q e)
    (hcrash : e ≠ .crash) (ha : (runnerSystem rt).apply q e = some p') : Returned rt p p' := by
  suffices hrest : p'.store.shutdownReturned = true ∧
      ∀ n ∈ p'.store.inserted, n ∈ p.store.inserted from
    ⟨h.sound.apply hok.permitted ha, hrest.1, hrest.2⟩
  obtain ⟨r, rfl, -, rfl⟩ | ⟨i, o, r, c, next, rfl, ht, hready, rfl⟩ | ⟨i, r, x, rfl, -, rfl⟩ |
    ⟨rfl, rfl⟩ | ⟨v, -, -⟩ := System.apply_cases ha
  · exact ⟨h.returned, h.inserted⟩
  · have heffect := RunnerCall.exec_effect rt o hready
    have hlocked := h.sound.1.returned h.returned
    have hpermitted : Permitted { sealed := True } rt q (.step i o) := hok.permitted
    have hsealed := (hpermitted i o r c next rfl ht).sealed trivial
    exact ⟨shutdownReturned_step heffect h.returned,
      fun n hn => h.inserted n (inserted_sealed heffect hsealed hlocked hn)⟩
  · exact ⟨h.returned, h.inserted⟩
  · exact absurd rfl hcrash
  · exact v.elim

lemma Returned.shutDown (h : Returned rt p p') : ShutDown p p' := by
  refine ⟨h.sound.1.signaled trivial h.returned, fun n hn e => ?_⟩
  rintro ⟨execution, hc | ⟨-, hspawned, rfl⟩⟩
  · obtain ⟨i, o, r, next, rfl, ht⟩ := Pool.call?_eq_some hc
    have hb := System.Sound.before (runnerOutline { sealed := True } rt) h.sound
      (List.mem_of_getElem? ht)
    exact hn (h.inserted n (SpawnBefore.inserted hb))
  · exact hn (h.inserted _ (h.sound.1.tokens execution (mem_tokens_of_spawned hspawned)).2.2.2)

theorem shutdown_reaches_jobs
    (h : (runnerSystem rt).Along (fun p e => NotAdmittedLate p e) es RunnerPool.initial)
    (hp : (runnerSystem rt).run es RunnerPool.initial = some p)
    (hreturned : p.store.shutdownReturned = true)
    (h' : (runnerSystem rt).Along (fun p e => NotAdmittedLate p e ∧ e ≠ .crash) es' p)
    (hp' : (runnerSystem rt).run es' p = some p') : ShutDown p p' := by
  have hsound : RunnerSound { sealed := True } rt p :=
    RunnerSound.initial.run (h.mono fun _ _ => NotAdmittedLate.permitted) hp
  have hreturn : Returned rt p p' := h'.invariant (I := Returned rt p)
    (fun _ _ _ hq hok ha => hq.apply hok.1 hok.2 ha) ⟨hsound, hreturned, fun _ hn => hn⟩ hp'
  exact hreturn.shutDown

def RunnerCall.inserts? : RunnerCall → Option JobManifest
  | .insertRunning _ manifest _ => some manifest
  | _ => none

lemma notAdmittedLate_iff : NotAdmittedLate p e ↔ ∀ c ∈ p.call? e, ∀ manifest ∈ c.inserts?,
    enforceConcurrency manifest p.store.runningJobs = .ok () → p.store.shutdownLocked = false := by
  rw [NotAdmittedLate]
  cases p.call? e with
  | none => simp
  | some c => cases c <;> simp [RunnerCall.inserts?]

instance (p : RunnerPool) (e : RunnerEvent) : Decidable (NotAdmittedLate p e) :=
  decidable_of_iff _ notAdmittedLate_iff.symm

def shuttingDown : List RunnerEvent :=
  booting ++ creating 0 "a" emptyBody ++ .start (.shutdown 0) :: steps 0 6

def requesting : List RunnerEvent := .start (.create 1 "deploy" "b" emptyBody) :: steps 1 3

theorem shutdown_reaches_jobs_running :
    ∃ p p', (runnerSystem sampleRuntime).run shuttingDown RunnerPool.initial = some p ∧
      (runnerSystem sampleRuntime).run requesting p = some p' ∧ ShutDown p p' := by
  have halong : (runnerSystem sampleRuntime).Along (fun p e => NotAdmittedLate p e ∧ e ≠ .crash)
      (shuttingDown ++ requesting) RunnerPool.initial := by
    decide +kernel
  have hrun : ((runnerSystem sampleRuntime).run shuttingDown RunnerPool.initial).map (fun p =>
      (p.store.shutdownReturned, ((runnerSystem sampleRuntime).run requesting p).isSome)) =
      some (true, true) := by
    decide +kernel
  obtain ⟨p, hp, hrun⟩ := Option.map_eq_some_iff.mp hrun
  obtain ⟨hreturned, hsome⟩ := Prod.mk.inj hrun
  obtain ⟨p', hp'⟩ := Option.isSome_iff_exists.mp hsome
  exact ⟨p, p', hp, hp', shutdown_reaches_jobs (halong.left.mono fun _ _ h => h.1) hp hreturned
    (halong.append hp) hp'⟩

def shuttingDownLate : List RunnerEvent :=
  booting ++ .start (.create 0 "deploy" "a" emptyBody) :: steps 0 2 ++
    .start (.shutdown 0) :: steps 1 3

theorem shutdown_misses_job : ¬ ∀ (rt : Runtime) (es es' : List RunnerEvent) (p p' : RunnerPool),
    (runnerSystem rt).run es RunnerPool.initial = some p → p.store.shutdownReturned = true →
    (runnerSystem rt).Along (fun _ e => e ≠ .crash) es' p →
    (runnerSystem rt).run es' p = some p' → ShutDown p p' := by
  intro h
  have halong : (runnerSystem sampleRuntime).Along (fun _ e => e ≠ .crash)
      (shuttingDownLate ++ steps 0 12) RunnerPool.initial := by
    decide +kernel
  have hrun : ((runnerSystem sampleRuntime).run shuttingDownLate RunnerPool.initial).bind (fun p =>
      ((runnerSystem sampleRuntime).run (steps 0 12) p).map fun p' => (p.store.shutdownReturned,
        p'.store.runningJobs.values.map RunningJob.channel, p'.store.signaled)) =
      some (true, [0], []) := by
    decide +kernel
  obtain ⟨p, hp, hrun⟩ := Option.bind_eq_some_iff.mp hrun
  obtain ⟨p', hp', hrun⟩ := Option.map_eq_some_iff.mp hrun
  simp only [Prod.mk.injEq] at hrun
  obtain ⟨hreturned, hjobs, hsignaled⟩ := hrun
  obtain ⟨job, hjob, -⟩ := List.map_eq_singleton_iff.mp hjobs
  have hmem : job ∈ p'.store.runningJobs.values := by
    rw [hjob]
    exact List.mem_singleton_self job
  obtain ⟨entry, hentry, -⟩ := List.mem_map.mp hmem
  have hsent := (h sampleRuntime _ _ p p' hp hreturned (halong.append hp) hp').signaled entry hentry
  rw [hsignaled] at hsent
  cases hsent

end Janus.Runner
