import Janus.Runner.ArtifactStore
import Janus.Runner.Runs

/-! What a start makes of uploads that a crash has cut off at any point. -/

namespace Janus.Runner

open Janus.Concurrency Janus.Data Janus.Server

def ArtifactCall.target : ArtifactCall → String
  | .createDirAll artifactId _ | .writeTemp artifactId _ _ | .rename artifactId _ => artifactId

def ArtifactCall.Prepares (artifactId : String) (c : ArtifactCall) : Prop :=
  c.target = artifactId ∧ c ≠ .rename artifactId "metadata.json"

section

variable {rt : Runtime} {codec : ArtifactCodec} {root root' : ArtifactRoot} {c : ArtifactCall}
variable {artifactId name file : String} {files : ArtifactFiles} {bytes : Bytes}

@[simp] lemma dir?_insert_self :
    ArtifactRoot.dir? (root.insert artifactId (.dir files)) artifactId = some files := by
  simp [ArtifactRoot.dir?]

@[simp] lemma read_insert_self :
    ArtifactRoot.read (root.insert artifactId (.dir files)) artifactId file = files.get file := by
  simp [ArtifactRoot.read]

lemma read_eq (h : root.dir? artifactId = some files) : root.read artifactId file = files.get file := by
  rw [ArtifactRoot.read, h]
  rfl

lemma tempFile_ne {text : String} (h : text.toList.head? ≠ some '.') : tempFile file ≠ text := by
  rintro rfl
  simp [tempFile] at h

lemma effect_get (h : c.effect root = some root') (hname : name ≠ c.target) :
    root'.get name = root.get name := by
  cases c with
  | createDirAll artifactId writing =>
    simp only [ArtifactCall.effect] at h
    cases hget : root.get artifactId with
    | none =>
      rw [hget] at h
      obtain rfl := Option.some.inj h
      exact OrderedMap.get_insert_of_ne hname
    | some entry =>
      rw [hget] at h
      cases entry with
      | file => cases h
      | dir files => rw [Option.some.inj h]
  | writeTemp artifactId file bytes =>
    obtain ⟨files, -, rfl⟩ := Option.map_eq_some_iff.mp h
    exact OrderedMap.get_insert_of_ne hname
  | rename artifactId file =>
    obtain ⟨files, -, h⟩ := Option.bind_eq_some_iff.mp h
    obtain ⟨bytes, -, rfl⟩ := Option.map_eq_some_iff.mp h
    exact OrderedMap.get_insert_of_ne hname

lemma effect_read (h : c.effect root = some root') (htemp : file.toList.head? ≠ some '.')
    (hrename : c ≠ .rename c.target file) :
    root'.read c.target file = root.read c.target file := by
  cases c with
  | createDirAll artifactId writing =>
    simp only [ArtifactCall.effect] at h
    cases hget : root.get artifactId with
    | none =>
      rw [hget] at h
      obtain rfl := Option.some.inj h
      simp [ArtifactCall.target, ArtifactRoot.read, ArtifactRoot.dir?, hget]
    | some entry =>
      rw [hget] at h
      cases entry with
      | file => cases h
      | dir files => rw [Option.some.inj h]
  | writeTemp artifactId written bytes =>
    obtain ⟨files, hdir, rfl⟩ := Option.map_eq_some_iff.mp h
    rw [ArtifactCall.target, read_insert_self, read_eq hdir,
      OrderedMap.get_insert_of_ne (tempFile_ne htemp).symm]
  | rename artifactId written =>
    obtain ⟨files, hdir, h⟩ := Option.bind_eq_some_iff.mp h
    obtain ⟨bytes, -, rfl⟩ := Option.map_eq_some_iff.mp h
    have hfile : file ≠ written := by
      rintro rfl
      exact hrename rfl
    rw [ArtifactCall.target, read_insert_self, read_eq hdir, OrderedMap.get_insert_of_ne hfile,
      OrderedMap.get_remove_of_ne (tempFile_ne htemp).symm]

lemma effect_not_file (h : c.effect root = some root') : root'.get c.target ≠ some .file := by
  cases c with
  | createDirAll artifactId writing =>
    simp only [ArtifactCall.effect] at h
    cases hget : root.get artifactId with
    | none =>
      rw [hget] at h
      obtain rfl := Option.some.inj h
      simp [ArtifactCall.target]
    | some entry =>
      rw [hget] at h
      cases entry with
      | file => cases h
      | dir files =>
        obtain rfl := Option.some.inj h
        simp [ArtifactCall.target, hget]
  | writeTemp artifactId file bytes =>
    obtain ⟨files, -, rfl⟩ := Option.map_eq_some_iff.mp h
    simp [ArtifactCall.target]
  | rename artifactId file =>
    obtain ⟨files, -, h⟩ := Option.bind_eq_some_iff.mp h
    obtain ⟨bytes, -, rfl⟩ := Option.map_eq_some_iff.mp h
    simp [ArtifactCall.target]

lemma artifact_exec_cases (rt : Runtime) (c : ArtifactCall) (o : DiskOutcome) (root : ArtifactRoot) :
    (∃ root', c.effect root = some root' ∧ c.exec rt o root = (.ok (), root')) ∨
      ∃ error root', c.exec rt o root = (.error error, root') ∧
        (root' = root ∨ ((c.partly o.written).effect root = some root' ∧
          ∀ artifactId file, c ≠ .rename artifactId file)) := by
  unfold ArtifactCall.exec
  cases hfails : o.fails with
  | none =>
    cases heffect : c.effect root with
    | none => exact .inr ⟨_, root, rfl, .inl rfl⟩
    | some root' => exact .inl ⟨root', rfl, rfl⟩
  | some source =>
    have hpart : ∀ c : ArtifactCall, (∀ artifactId file, c ≠ .rename artifactId file) →
        let left := if o.applied then ((c.partly o.written).effect root).getD root else root
        left = root ∨ ((c.partly o.written).effect root = some left ∧
          ∀ artifactId file, c ≠ .rename artifactId file) := by
      intro c hc
      by_cases happlied : o.applied = true
      · cases heffect : (c.partly o.written).effect root with
        | none => exact .inl (by simp [happlied])
        | some root' => exact .inr ⟨by simp [happlied], hc⟩
      · exact .inl (by simp [happlied])
    cases c with
    | rename artifactId file => exact .inr ⟨_, root, rfl, .inl rfl⟩
    | createDirAll artifactId writing => exact .inr ⟨_, _, rfl, hpart _ fun _ _ h => by cases h⟩
    | writeTemp artifactId file bytes => exact .inr ⟨_, _, rfl, hpart _ fun _ _ h => by cases h⟩

lemma exec_get (o : DiskOutcome) (hname : name ≠ c.target) :
    (c.exec rt o root).2.get name = root.get name := by
  have htarget : (c.partly o.written).target = c.target := by cases c <;> rfl
  obtain ⟨root', heffect, hexec⟩ | ⟨error, root', hexec, rfl | ⟨heffect, -⟩⟩ :=
    artifact_exec_cases rt c o root
  · rw [hexec]
    exact effect_get heffect hname
  · rw [hexec]
  · rw [hexec]
    exact effect_get heffect (htarget ▸ hname)

lemma exec_read (o : DiskOutcome) (htemp : file.toList.head? ≠ some '.')
    (hrename : c ≠ .rename c.target file) :
    (c.exec rt o root).2.read c.target file = root.read c.target file := by
  have htarget : (c.partly o.written).target = c.target := by cases c <;> rfl
  obtain ⟨root', heffect, hexec⟩ | ⟨error, root', hexec, rfl | ⟨heffect, hc⟩⟩ :=
    artifact_exec_cases rt c o root
  · rw [hexec]
    exact effect_read heffect htemp hrename
  · rw [hexec]
  · have hpartly : c.partly o.written ≠ .rename (c.partly o.written).target file := by
      cases c with
      | rename artifactId file => exact absurd rfl (hc artifactId file)
      | createDirAll artifactId writing => exact fun h => by cases h
      | writeTemp artifactId file bytes => exact fun h => by cases h
    have hread := effect_read heffect htemp hpartly
    rw [hexec]
    rw [htarget] at hread
    exact hread

end

def prepareUpload (rt : Runtime) (codec : ArtifactCodec) (bytes : Bytes) (checksum : Option String)
    (artifactId : String) (expiresAt : Except ArtifactError String) : ArtifactTask ArtifactRecord := do
  Program.done (checkUpload rt bytes checksum)
  let expiresAt ← Program.done expiresAt
  let metadata : ArtifactRecord := ⟨artifactId, rt.sha256Hex bytes, bytes.length, expiresAt⟩
  Program.request (.createDirAll artifactId none)
  atomicWrite artifactId "blob" bytes
  Program.request (.createDirAll artifactId (some "metadata.json"))
  Program.request (.writeTemp artifactId "metadata.json" (codec.toVecPretty metadata))
  pure metadata

def HasFiles (artifactId : String) (P : ArtifactFiles → Prop) (root : ArtifactRoot) : Prop :=
  ∃ files, root.dir? artifactId = some files ∧ P files

section

variable {rt : Runtime} {codec : ArtifactCodec} {root : ArtifactRoot} {artifactId : String}
variable {bytes : Bytes} {checksum : Option String} {expiresAt : Except ArtifactError String}

lemma storeArtifactBytes_eq : storeArtifactBytes rt codec bytes checksum artifactId expiresAt =
    prepareUpload rt codec bytes checksum artifactId expiresAt >>= fun metadata =>
      Program.request (.rename artifactId "metadata.json") >>= fun _ => pure metadata := by
  simp only [prepareUpload, storeArtifactBytes, atomicWrite, Program.bind_assoc, Program.pure_def,
    Program.done_bind]

lemma prepareUpload_only : (prepareUpload rt codec bytes checksum artifactId expiresAt).Only
    (ArtifactCall.Prepares artifactId) := by
  have hwrite : (atomicWrite artifactId "blob" bytes).Only (ArtifactCall.Prepares artifactId) := by
    refine .bind (Program.Only.request_iff.mpr ⟨rfl, fun h => by cases h⟩) fun _ => ?_
    refine .bind (Program.Only.request_iff.mpr ⟨rfl, fun h => by cases h⟩) fun _ => ?_
    refine Program.Only.request_iff.mpr ⟨rfl, fun h => ?_⟩
    exact absurd (ArtifactCall.rename.inj h).2 (by decide)
  refine .bind (Program.Only.done _) fun _ => .bind (Program.Only.done _) fun expiresAt => ?_
  refine .bind (Program.Only.request_iff.mpr ⟨rfl, fun h => by cases h⟩) fun _ => ?_
  refine .bind hwrite fun _ => ?_
  refine .bind (Program.Only.request_iff.mpr ⟨rfl, fun h => by cases h⟩) fun _ => ?_
  refine .bind (Program.Only.request_iff.mpr ⟨rfl, fun h => by cases h⟩) fun _ => ?_
  exact Program.Only.pure _

lemma effect_of_exec_ok {c : ArtifactCall} {o : DiskOutcome} {a : c.Result} {root' : ArtifactRoot}
    (h : c.exec rt o root = (.ok a, root')) : c.effect root = some root' := by
  obtain ⟨left, heffect, hexec⟩ | ⟨error, left, hexec, -⟩ := artifact_exec_cases rt c o root
  · obtain rfl : left = root' := congrArg Prod.snd (hexec.symm.trans h)
    exact heffect
  · cases hexec.symm.trans h

lemma triple_call {A B : ArtifactRoot → Prop} {c : ArtifactCall}
    (h : ∀ root root', A root → c.effect root = some root' → B root') :
    Triple (ArtifactCall.exec rt) A (Program.request c) (fun _ => B) fun _ _ => True :=
  Triple.request (fun _ root _ root' hroot hexec => h root root' hroot (effect_of_exec_ok hexec))
    fun _ _ _ _ _ _ => trivial

lemma triple_createDirAll (rt : Runtime) (P : ArtifactFiles → Prop) (writing : Option String) :
    Triple (ArtifactCall.exec rt) (HasFiles artifactId P)
      (Program.request (.createDirAll artifactId writing)) (fun _ => HasFiles artifactId P)
      fun _ _ => True := by
  refine triple_call fun root root' hfiles heffect => ?_
  obtain ⟨files, hdir, hP⟩ := id hfiles
  have hget : root.get artifactId = some (.dir files) := by
    unfold ArtifactRoot.dir? at hdir
    cases hget : root.get artifactId with
    | none =>
      rw [hget] at hdir
      cases hdir
    | some entry =>
      rw [hget] at hdir
      cases entry with
      | file => cases hdir
      | dir files' => rw [Option.some.inj hdir]
  rw [ArtifactCall.effect, hget] at heffect
  exact Option.some.inj heffect ▸ hfiles

lemma triple_create (rt : Runtime) :
    Triple (ArtifactCall.exec rt) (fun _ => True) (Program.request (.createDirAll artifactId none))
      (fun _ => HasFiles artifactId fun _ => True) fun _ _ => True := by
  refine triple_call fun root root' _ heffect => ?_
  simp only [ArtifactCall.effect] at heffect
  cases hget : root.get artifactId with
  | none =>
    rw [hget] at heffect
    obtain rfl := Option.some.inj heffect
    exact ⟨.empty, dir?_insert_self, trivial⟩
  | some entry =>
    rw [hget] at heffect
    cases entry with
    | file => cases heffect
    | dir files =>
      obtain rfl := Option.some.inj heffect
      exact ⟨files, by simp [ArtifactRoot.dir?, hget], trivial⟩

lemma triple_writeTemp (rt : Runtime) {P Q : ArtifactFiles → Prop} {file : String} {bytes : Bytes}
    (h : ∀ files, P files → Q (files.insert (tempFile file) bytes)) :
    Triple (ArtifactCall.exec rt) (HasFiles artifactId P)
      (Program.request (.writeTemp artifactId file bytes)) (fun _ => HasFiles artifactId Q)
      fun _ _ => True := by
  refine triple_call fun root root' hfiles heffect => ?_
  obtain ⟨files, hdir, hP⟩ := hfiles
  rw [ArtifactCall.effect, hdir] at heffect
  obtain rfl := Option.some.inj heffect
  exact ⟨_, dir?_insert_self, h files hP⟩

lemma triple_rename (rt : Runtime) {P Q : ArtifactFiles → Prop} {file : String}
    (h : ∀ files bytes, P files → files.get (tempFile file) = some bytes →
      Q ((files.remove (tempFile file)).insert file bytes)) :
    Triple (ArtifactCall.exec rt) (HasFiles artifactId P)
      (Program.request (.rename artifactId file)) (fun _ => HasFiles artifactId Q)
      fun _ _ => True := by
  refine triple_call fun root root' hfiles heffect => ?_
  obtain ⟨files, hdir, hP⟩ := hfiles
  rw [ArtifactCall.effect, hdir] at heffect
  obtain ⟨bytes, hbytes, rfl⟩ := Option.map_eq_some_iff.mp heffect
  exact ⟨_, dir?_insert_self, h files bytes hP hbytes⟩

lemma triple_blob (rt : Runtime) (bytes : Bytes) :
    Triple (ArtifactCall.exec rt) (HasFiles artifactId fun _ => True)
      (atomicWrite artifactId "blob" bytes)
      (fun _ => HasFiles artifactId fun files => files.get "blob" = some bytes) fun _ _ => True := by
  apply Triple.bind (triple_createDirAll rt _ _)
  intro _
  apply Triple.bind (triple_writeTemp rt (Q := fun files => files.get (tempFile "blob") = some bytes)
    fun files _ => OrderedMap.get_insert_self)
  intro _
  apply triple_rename rt
  intro files written hwritten htemp
  obtain rfl := Option.some.inj (htemp.symm.trans hwritten)
  exact OrderedMap.get_insert_self

lemma triple_prepareUpload : Triple (ArtifactCall.exec rt) (fun _ => True)
    (prepareUpload rt codec bytes checksum artifactId expiresAt)
    (fun metadata root => (∃ time, expiresAt = .ok time ∧
        metadata = ⟨artifactId, rt.sha256Hex bytes, bytes.length, time⟩) ∧
      HasFiles artifactId (fun files => files.get "blob" = some bytes ∧
        files.get (tempFile "metadata.json") = some (codec.toVecPretty metadata)) root)
    fun _ _ => True := by
  refine Triple.bind (Triple.done (fun _ _ _ h => h) fun _ _ _ _ => trivial) fun _ => ?_
  refine Triple.bind (B := fun time _ => expiresAt = .ok time)
    (Triple.done (fun _ h _ _ => h) fun _ _ _ _ => trivial) fun time => ?_
  intro os root htime
  refine (?_ : Triple (ArtifactCall.exec rt) (fun _ => True) _ _ _) os root trivial
  refine Triple.bind (triple_create rt) fun _ => Triple.bind (triple_blob rt bytes) fun _ => ?_
  refine Triple.bind (triple_createDirAll rt _ _) fun _ => ?_
  refine Triple.bind (triple_writeTemp rt fun files hblob => ⟨?_, OrderedMap.get_insert_self⟩)
    fun _ => Triple.pure fun root hfiles => ⟨⟨time, htime, rfl⟩, hfiles⟩
  exact (OrderedMap.get_insert_of_ne (tempFile_ne (by decide)).symm).trans hblob

def Completed (result : Option (Except ArtifactError ArtifactRecord)) : Prop :=
  ∃ metadata, result = some (.ok metadata)

lemma not_completed_none : ¬Completed none := by
  rintro ⟨metadata, h⟩
  cases h

lemma not_completed_error {error : ArtifactError} : ¬Completed (some (.error error)) := by
  rintro ⟨metadata, h⟩
  cases h

instance : DecidablePred Completed
  | some (.ok metadata) => isTrue ⟨metadata, rfl⟩
  | some (.error _) => isFalse not_completed_error
  | none => isFalse not_completed_none

def UploadEnded (rt : Runtime) (codec : ArtifactCodec) (bytes : Bytes) (artifactId : String)
    (expiresAt : Except ArtifactError String) (result : Option (Except ArtifactError ArtifactRecord))
    (root : ArtifactRoot) : Prop :=
  ¬Completed result ∧ root.get artifactId ≠ some .file ∧ root.read artifactId "metadata.json" = none ∨
    ∃ time, expiresAt = .ok time ∧
      result = some (.ok ⟨artifactId, rt.sha256Hex bytes, bytes.length, time⟩) ∧
      HasFiles artifactId (fun files => files.get "blob" = some bytes ∧
        files.get "metadata.json" = some (codec.toVecPretty
          ⟨artifactId, rt.sha256Hex bytes, bytes.length, time⟩)) root

def Unfinished (artifactId : String) (root : ArtifactRoot) : Prop :=
  root.get artifactId ≠ some .file ∧ root.read artifactId "metadata.json" = none

lemma unfinished_exec {c : ArtifactCall} (o : DiskOutcome) (hc : c.Prepares artifactId)
    (h : Unfinished artifactId root) : Unfinished artifactId (c.exec rt o root).2 := by
  obtain ⟨rfl, hrename⟩ := hc
  refine ⟨?_, (exec_read o (by decide) hrename).trans h.2⟩
  have htarget : (c.partly o.written).target = c.target := by cases c <;> rfl
  obtain ⟨left, heffect, hexec⟩ | ⟨error, left, hexec, rfl | ⟨heffect, -⟩⟩ :=
    artifact_exec_cases rt c o root
  · rw [hexec]
    exact effect_not_file heffect
  · rw [hexec]
    exact h.1
  · rw [hexec]
    exact htarget ▸ effect_not_file heffect

theorem store_played (hfresh : root.get artifactId = none) (os : List DiskOutcome) :
    let e := (storeArtifactBytes rt codec bytes checksum artifactId expiresAt).play
      (ArtifactCall.exec rt) os root
    (∀ name, name ≠ artifactId → e.store.get name = root.get name) ∧
      UploadEnded rt codec bytes artifactId expiresAt e.result e.store := by
  have hprepared : ((prepareUpload rt codec bytes checksum artifactId expiresAt).play
      (ArtifactCall.exec rt) os root).Ends _ _ := triple_prepareUpload os root trivial
  have hnone : Unfinished artifactId root :=
    ⟨by simp [hfresh], by simp [ArtifactRoot.read, ArtifactRoot.dir?, hfresh]⟩
  have hmeta : Unfinished artifactId ((prepareUpload rt codec bytes checksum artifactId expiresAt).play
      (ArtifactCall.exec rt) os root).store :=
    Program.play_only (fun c o root hc => unfinished_exec o hc) prepareUpload_only hnone os
  intro e
  refine ⟨fun name hname => ?_, ?_⟩
  · refine Program.play_only (Q := fun c => c.target = artifactId)
      (A := fun left : ArtifactRoot => left.get name = root.get name) ?_ ?_ rfl os
    · rintro c o left rfl hleft
      exact (exec_get o hname).trans hleft
    · rw [storeArtifactBytes_eq]
      exact .bind (prepareUpload_only.mono fun c hc => hc.1) fun _ =>
        .bind (Program.Only.request_iff.mpr rfl) fun _ => Program.Only.pure _
  · have hplay : e = _ := (congrArg (Program.play (ArtifactCall.exec rt) os · root)
      storeArtifactBytes_eq).trans (Program.play_bind os _ _ root)
    rw [hplay, Played.andThen]
    rcases hresult : ((prepareUpload rt codec bytes checksum artifactId expiresAt).play
      (ArtifactCall.exec rt) os root).result with _ | error | metadata
    · exact .inl ⟨not_completed_none, hmeta⟩
    · exact .inl ⟨not_completed_error, hmeta⟩
    · rw [Played.Ends, hresult] at hprepared
      obtain ⟨⟨time, htime, rfl⟩, files, hdir, hblob, htemp⟩ := hprepared
      refine Program.play_request (P := fun e =>
        UploadEnded rt codec bytes artifactId expiresAt e.result e.store) ?_ ?_ ?_
      · exact fun _ => .inl ⟨not_completed_none, hmeta⟩
      · intro o os' error root' _ hexec
        refine .inl ⟨not_completed_error, ?_⟩
        obtain ⟨left, heffect, hexec'⟩ | ⟨error', left, hexec', rfl | ⟨-, hc⟩⟩ :=
          artifact_exec_cases rt (.rename artifactId "metadata.json") o _
        · cases hexec.symm.trans hexec'
        · obtain rfl := congrArg Prod.snd (hexec'.symm.trans hexec)
          exact hmeta
        · exact absurd rfl (hc artifactId "metadata.json")
      · intro o os' a root' _ hexec
        have heffect := effect_of_exec_ok hexec
        rw [ArtifactCall.effect, hdir, Option.bind_some, htemp] at heffect
        obtain rfl := Option.some.inj heffect
        rw [Program.play_pure]
        refine .inr ⟨time, htime, rfl, _, dir?_insert_self, ?_, OrderedMap.get_insert_self⟩
        rw [OrderedMap.get_insert_of_ne (by decide), OrderedMap.get_remove_of_ne (by decide)]
        exact hblob

end

/-- A call of `store_bytes`, and what its calls of the file system meet as far as it comes; one in
which the machine goes down is one that fails after a part of it. -/
structure Upload where
  bytes : Bytes
  checksum : Option String
  artifactId : String
  expiresAt : Except ArtifactError String
  outcomes : List DiskOutcome

def Upload.play (rt : Runtime) (codec : ArtifactCodec) (u : Upload) (root : ArtifactRoot) :
    Played ArtifactError ArtifactRecord DiskOutcome ArtifactRoot :=
  (storeArtifactBytes rt codec u.bytes u.checksum u.artifactId u.expiresAt).play
    (ArtifactCall.exec rt) u.outcomes root

abbrev UploadLog := List (Upload × Option (Except ArtifactError ArtifactRecord))

def storeAll (rt : Runtime) (codec : ArtifactCodec) :
    ArtifactRoot → List Upload → UploadLog × ArtifactRoot
  | root, [] => ([], root)
  | root, u :: us =>
    let played := u.play rt codec root
    let rest := storeAll rt codec played.store us
    ((u, played.result) :: rest.1, rest.2)

/-- The metadata of an upload are read as they are written. -/
def ReadsBack (rt : Runtime) (codec : ArtifactCodec) (u : Upload) : Prop :=
  ∀ time, u.expiresAt = .ok time →
    let metadata : ArtifactRecord := ⟨u.artifactId, rt.sha256Hex u.bytes, u.bytes.length, time⟩
    codec.fromSlice (codec.toVecPretty metadata) = .ok metadata

section

variable {rt : Runtime} {codec : ArtifactCodec} {root root' : ArtifactRoot} {artifactId : String}
variable {bytes : Bytes} {expiresAt : Except ArtifactError String}
variable {result : Option (Except ArtifactError ArtifactRecord)} {us : List Upload}

lemma dir?_congr (h : root'.get artifactId = root.get artifactId) :
    root'.dir? artifactId = root.dir? artifactId := by
  unfold ArtifactRoot.dir?
  rw [h]

lemma UploadEnded.congr (h : UploadEnded rt codec bytes artifactId expiresAt result root)
    (hget : root'.get artifactId = root.get artifactId) :
    UploadEnded rt codec bytes artifactId expiresAt result root' := by
  unfold UploadEnded HasFiles ArtifactRoot.read
  rw [dir?_congr hget, hget]
  exact h

theorem storeAll_ended (rt : Runtime) (codec : ArtifactCodec) {root : ArtifactRoot} {us : List Upload}
    (hids : (us.map Upload.artifactId).Nodup)
    (hfresh : ∀ u ∈ us, root.get u.artifactId = none) :
    (∀ name, name ∉ us.map Upload.artifactId →
        (storeAll rt codec root us).2.get name = root.get name) ∧
      (storeAll rt codec root us).1.map Prod.fst = us ∧
      ∀ e ∈ (storeAll rt codec root us).1, UploadEnded rt codec e.1.bytes e.1.artifactId
        e.1.expiresAt e.2 (storeAll rt codec root us).2 := by
  induction us generalizing root with
  | nil => exact ⟨fun _ _ => rfl, rfl, fun e he => absurd he List.not_mem_nil⟩
  | cons u us ih =>
    obtain ⟨hnew, htail⟩ := List.nodup_cons.mp hids
    have hplayed : (∀ name, name ≠ u.artifactId → (u.play rt codec root).store.get name = root.get name) ∧
        UploadEnded rt codec u.bytes u.artifactId u.expiresAt (u.play rt codec root).result
          (u.play rt codec root).store :=
      store_played (hfresh u List.mem_cons_self) u.outcomes
    obtain ⟨hframe, hended⟩ := hplayed
    have hne : ∀ u' ∈ us, u'.artifactId ≠ u.artifactId := fun u' hu' heq =>
      hnew (heq ▸ List.mem_map_of_mem hu')
    obtain ⟨hrest, hlog, hothers⟩ := ih htail fun u' hu' =>
      (hframe u'.artifactId (hne u' hu')).trans (hfresh u' (List.mem_cons_of_mem _ hu'))
    refine ⟨fun name hname => ?_, ?_, ?_⟩
    · obtain ⟨hself, hlater⟩ := not_or.mp (mt List.mem_cons.mpr hname)
      exact (hrest name hlater).trans (hframe name hself)
    · exact congrArg (u :: ·) hlog
    · intro e he
      rcases List.mem_cons.mp he with rfl | he
      · exact hended.congr (hrest u.artifactId hnew)
      · exact hothers e he

end

def Recoverable (rt : Runtime) (codec : ArtifactCodec) (root : ArtifactRoot) (name : String) : Bool :=
  (root.dir? name).any fun files => artifactDirIsRecoverable rt codec files name

section

variable {rt : Runtime} {codec : ArtifactCodec} {root : ArtifactRoot} {name other : String}
variable {names : List String}

lemma recoverable_remove (h : other ≠ name) :
    Recoverable rt codec (root.remove name) other = Recoverable rt codec root other := by
  rw [Recoverable, dir?_congr (OrderedMap.get_remove_of_ne h), Recoverable]

lemma recover_cons (rt : Runtime) (codec : ArtifactCodec) (root : ArtifactRoot) (name : String)
    (names : List String) : recoverIncompleteArtifacts rt codec root (name :: names) =
      if Recoverable rt codec root name then
        ((recoverIncompleteArtifacts rt codec (root.remove name) names).1 + 1,
          (recoverIncompleteArtifacts rt codec (root.remove name) names).2)
      else recoverIncompleteArtifacts rt codec root names := by
  rw [recoverIncompleteArtifacts, Recoverable]
  cases root.dir? name with
  | none => rfl
  | some files => rfl

lemma recover_removed (h : Recoverable rt codec root name) :
    recoverIncompleteArtifacts rt codec root (name :: names) =
      ((recoverIncompleteArtifacts rt codec (root.remove name) names).1 + 1,
        (recoverIncompleteArtifacts rt codec (root.remove name) names).2) := by
  rw [recover_cons, if_pos h]

lemma recover_passed (h : ¬Recoverable rt codec root name) :
    recoverIncompleteArtifacts rt codec root (name :: names) =
      recoverIncompleteArtifacts rt codec root names := by
  rw [recover_cons, if_neg h]

lemma recover_get (hnames : names.Nodup) :
    (recoverIncompleteArtifacts rt codec root names).2.get other =
      if other ∈ names ∧ Recoverable rt codec root other then none else root.get other := by
  induction names generalizing root with
  | nil => simp [recoverIncompleteArtifacts]
  | cons name names ih =>
    obtain ⟨hname, htail⟩ := List.nodup_cons.mp hnames
    by_cases hrecoverable : Recoverable rt codec root name
    · rw [recover_removed hrecoverable, ih htail]
      by_cases hother : other = name
      · subst hother
        simp [hname, hrecoverable, OrderedMap.get_remove_self]
      · simp [hother, recoverable_remove hother, OrderedMap.get_remove_of_ne hother]
    · rw [recover_passed hrecoverable, ih htail]
      by_cases hother : other = name
      · subst hother
        simp [hname, hrecoverable]
      · simp [hother]

lemma recover_count (hnames : names.Nodup) :
    (recoverIncompleteArtifacts rt codec root names).1 = names.countP (Recoverable rt codec root) := by
  induction names generalizing root with
  | nil => rfl
  | cons name names ih =>
    obtain ⟨hname, htail⟩ := List.nodup_cons.mp hnames
    have hremoved : names.countP (Recoverable rt codec (root.remove name)) =
        names.countP (Recoverable rt codec root) := by
      refine List.countP_congr fun other hother => ?_
      rw [recoverable_remove (ne_of_mem_of_not_mem hother hname)]
    by_cases hrecoverable : Recoverable rt codec root name
    · rw [recover_removed hrecoverable, List.countP_cons_of_pos hrecoverable, ← hremoved]
      exact congrArg (· + 1) (ih htail)
    · rw [recover_passed hrecoverable, List.countP_cons_of_neg hrecoverable]
      exact ih htail

lemma recover_none (h : ∀ name ∈ names, ¬Recoverable rt codec root name) :
    recoverIncompleteArtifacts rt codec root names = (0, root) := by
  induction names with
  | nil => rfl
  | cons name names ih =>
    rw [recover_passed (h name List.mem_cons_self)]
    exact ih fun other hother => h other (List.mem_cons_of_mem _ hother)

end

section

variable {rt : Runtime} {codec : ArtifactCodec} {root : ArtifactRoot} {artifactId : String}
variable {bytes : Bytes} {uploads : List Upload} {listing : List String}

lemma unfinished_recoverable (h : Unfinished artifactId root) (hget : root.get artifactId ≠ none) :
    Recoverable rt codec root artifactId = true := by
  unfold Recoverable
  cases hentry : root.get artifactId with
  | none => exact absurd hentry hget
  | some entry =>
    cases entry with
    | file => exact absurd hentry h.1
    | dir files =>
      have hdir : root.dir? artifactId = some files := by
        rw [ArtifactRoot.dir?, hentry]
      have hmeta : files.get "metadata.json" = none := (read_eq hdir).symm.trans h.2
      rw [hdir, Option.any_some, artifactDirIsRecoverable, hmeta]

lemma finished_kept {time : String}
    (hreads : codec.fromSlice (codec.toVecPretty ⟨artifactId, rt.sha256Hex bytes, bytes.length, time⟩) =
      .ok ⟨artifactId, rt.sha256Hex bytes, bytes.length, time⟩)
    (h : HasFiles artifactId (fun files => files.get "blob" = some bytes ∧
      files.get "metadata.json" = some (codec.toVecPretty
        ⟨artifactId, rt.sha256Hex bytes, bytes.length, time⟩)) root) :
    ¬Recoverable rt codec root artifactId = true := by
  obtain ⟨files, hdir, hblob, hmeta⟩ := h
  simp [Recoverable, hdir, artifactDirIsRecoverable, hmeta, hreads, hblob]

lemma recoverable_iff (hids : (uploads.map Upload.artifactId).Nodup)
    (hcodec : ∀ u ∈ uploads, ReadsBack rt codec u) {name : String}
    (hget : (storeAll rt codec .empty uploads).2.get name ≠ none) :
    Recoverable rt codec (storeAll rt codec .empty uploads).2 name = true ↔
      ∃ e ∈ (storeAll rt codec .empty uploads).1, e.1.artifactId = name ∧ ¬Completed e.2 := by
  obtain ⟨hframe, hlog, hended⟩ := storeAll_ended rt codec hids
    fun _ _ => OrderedMap.get_empty
  constructor
  · intro hrecoverable
    have hname : name ∈ uploads.map Upload.artifactId :=
      not_imp_comm.mp (hframe name) hget
    rw [← hlog, List.map_map] at hname
    obtain ⟨e, he, rfl⟩ := List.mem_map.mp hname
    refine ⟨e, he, rfl, fun hcompleted => ?_⟩
    obtain ⟨hnot, -⟩ | ⟨time, htime, -, hfiles⟩ := hended e he
    · exact hnot hcompleted
    · have hmem : e.1 ∈ uploads := hlog ▸ List.mem_map_of_mem he
      exact finished_kept (hcodec e.1 hmem time htime) hfiles hrecoverable
  · rintro ⟨e, he, rfl, hnot⟩
    obtain ⟨-, hunfinished⟩ | ⟨time, -, hresult, -⟩ := hended e he
    · exact unfinished_recoverable hunfinished hget
    · exact absurd ⟨_, hresult⟩ hnot

lemma loadStoredArtifact_finished {metadata : ArtifactRecord} {now expiresAt : ℤ}
    (hid : validateArtifactId artifactId = .ok ())
    (hmeta : root.read artifactId "metadata.json" = some (codec.toVecPretty metadata))
    (hblob : root.read artifactId "blob" = some bytes)
    (hreads : codec.fromSlice (codec.toVecPretty metadata) = .ok metadata)
    (hexpiry : codec.parseFromRfc3339 metadata.expiresAt = .ok expiresAt) (hnow : now < expiresAt) :
    loadStoredArtifact rt codec root artifactId now = .ok (metadata, bytes) := by
  have hload : loadArtifactRecord rt codec root artifactId = .ok metadata := by
    simp [loadArtifactRecord, hid, hmeta, hreads, Except.mapError]
  have hlive : metadata.isExpired codec now = .ok false := by
    simp [ArtifactRecord.isExpired, hexpiry, hnow]
  simp [loadStoredArtifact, hload, hlive, hblob, bind, Except.bind, pure, Except.pure]

end

/-- After any uploads, each as far as it has come, a start removes just the directories of those that
are not completed, and counts them; the artifacts of the others are served as before, and a second
start finds nothing to do. -/
theorem uploads_recovered (rt : Runtime) {codec : ArtifactCodec} {uploads : List Upload}
    {listing : List String} (hids : (uploads.map Upload.artifactId).Nodup)
    (hvalid : ∀ u ∈ uploads, validateArtifactId u.artifactId = .ok ())
    (hcodec : ∀ u ∈ uploads, ReadsBack rt codec u)
    (hlisting : Lists (storeAll rt codec .empty uploads).2 listing) :
    let log := (storeAll rt codec .empty uploads).1
    let root := (storeAll rt codec .empty uploads).2
    let recovered := recoverIncompleteArtifacts rt codec root listing
    (∀ name, root.get name ≠ none →
      (recovered.2.get name = none ↔ ∃ e ∈ log, e.1.artifactId = name ∧ ¬Completed e.2) ∧
      (recovered.2.get name ≠ none → recovered.2.get name = root.get name)) ∧
    (∀ e ∈ log, ∀ metadata, e.2 = some (.ok metadata) →
      recovered.2.read e.1.artifactId "blob" = some e.1.bytes ∧
      recovered.2.read e.1.artifactId "metadata.json" = some (codec.toVecPretty metadata) ∧
      ∀ now expiresAt, codec.parseFromRfc3339 metadata.expiresAt = .ok expiresAt → now < expiresAt →
        loadStoredArtifact rt codec recovered.2 e.1.artifactId now = .ok (metadata, e.1.bytes)) ∧
    recovered.1 = listing.countP (fun name => (recovered.2.get name).isNone) ∧
    ∀ listing', Lists recovered.2 listing' →
      recoverIncompleteArtifacts rt codec recovered.2 listing' = (0, recovered.2) := by
  intro log root recovered
  have hget : ∀ name, recovered.2.get name =
      if name ∈ listing ∧ Recoverable rt codec root name then none else root.get name :=
    fun name => recover_get hlisting.nodup
  have hlisted : ∀ name, name ∈ listing ↔ root.get name ≠ none := fun name => by
    rw [hlisting.mem, OrderedMap.containsKey_eq_isSome, Option.isSome_iff_ne_none]
  have hgone : ∀ name, root.get name ≠ none →
      (recovered.2.get name = none ↔ Recoverable rt codec root name = true) := by
    intro name hname
    rw [hget]
    by_cases h : Recoverable rt codec root name = true
    · simp [h, (hlisted name).mpr hname]
    · simp [h, hname]
  have hkept : ∀ name, ¬Recoverable rt codec root name = true →
      recovered.2.get name = root.get name := by
    intro name h
    rw [hget, if_neg fun hboth => h hboth.2]
  refine ⟨fun name hname => ⟨(hgone name hname).trans (recoverable_iff hids hcodec hname), ?_⟩,
    ?_, ?_, ?_⟩
  · exact fun hstays => hkept name (mt (hgone name hname).mpr hstays)
  · intro e he metadata hresult
    obtain ⟨-, hlog, hended⟩ := storeAll_ended rt codec hids
      fun _ _ => OrderedMap.get_empty
    have hmem : e.1 ∈ uploads := hlog ▸ List.mem_map_of_mem he
    obtain ⟨hnot, -⟩ | ⟨time, htime, hresult', hfiles⟩ := hended e he
    · exact absurd ⟨metadata, hresult⟩ hnot
    obtain rfl := Except.ok.inj (Option.some.inj (hresult.symm.trans hresult'))
    have hreads := hcodec e.1 hmem time htime
    have hsame := dir?_congr (hkept _ (finished_kept hreads hfiles))
    obtain ⟨files, hdir, hblob, hmeta⟩ := hfiles
    have hread : ∀ file, recovered.2.read e.1.artifactId file = files.get file := fun file =>
      read_eq (hsame.trans hdir)
    refine ⟨(hread _).trans hblob, (hread _).trans hmeta, fun now expiresAt hexpiry hnow => ?_⟩
    exact loadStoredArtifact_finished (hvalid e.1 hmem) ((hread _).trans hmeta)
      ((hread _).trans hblob) hreads hexpiry hnow
  · refine (recover_count hlisting.nodup).trans (List.countP_congr fun name hname => ?_)
    rw [Option.isNone_iff_eq_none]
    exact (hgone name ((hlisted name).mp hname)).symm
  · intro listing' hlisting'
    refine recover_none fun name hname hrecoverable => ?_
    have hstays : recovered.2.get name ≠ none := by
      rw [hlisting'.mem, OrderedMap.containsKey_eq_isSome, Option.isSome_iff_ne_none] at hname
      exact hname
    have hsame : recovered.2.get name = root.get name := by
      rw [hget] at hstays ⊢
      by_cases h : name ∈ listing ∧ Recoverable rt codec root name
      · exact absurd (if_pos h) hstays
      · exact if_neg h
    have hname' : root.get name ≠ none := hsame ▸ hstays
    rw [Recoverable, dir?_congr hsame] at hrecoverable
    exact hstays ((hgone name hname').mpr hrecoverable)

def keptRecord : ArtifactRecord :=
  ⟨"art_018f6a5211117000800000000000ab01",
    "e3b0c44298fc1c149afbf4c8996fb92427ae41e4649b934ca495991b7852b855", 0, "2024-05-12T00:00:00Z"⟩

/-- `serde_json`'s pretty text, of records whose texts need no escapes. -/
def recordText (metadata : ArtifactRecord) : String :=
  "\x7b\n  \"artifact_id\": \"" ++ metadata.artifactId ++ "\",\n  \"sha256\": \"" ++
    metadata.sha256 ++ "\",\n  \"size\": " ++ toString metadata.size ++
    ",\n  \"expires_at\": \"" ++ metadata.expiresAt ++ "\"\n\x7d"

def cutRecord : ArtifactRecord :=
  { keptRecord with artifactId := "art_018f6a5211117000800000000000ab02" }

def keptCodec : ArtifactCodec where
  toVecPretty metadata := utf8 (recordText metadata)
  fromSlice raw :=
    if raw = utf8 (recordText keptRecord) then .ok keptRecord
    else if raw = utf8 (recordText cutRecord) then .ok cutRecord
    else .error "expected value"
  parseFromRfc3339 text :=
    if text = keptRecord.expiresAt then .ok 1715472000 else .error "input contains invalid characters"

def keptUpload : Upload where
  bytes := []
  checksum := none
  artifactId := keptRecord.artifactId
  expiresAt := .ok keptRecord.expiresAt
  outcomes := List.replicate 7 {}

def cutUpload : Upload :=
  { keptUpload with
    artifactId := cutRecord.artifactId
    outcomes := List.replicate 5 {} ++ [{ fails := some "no space left", applied := true, written := 9 }] }

lemma sample_readsBack : ∀ u ∈ [keptUpload, cutUpload], ReadsBack sampleRuntime keptCodec u := by
  have hhash : sampleRuntime.sha256Hex [] = keptRecord.sha256 := by decide +kernel
  have hne : utf8 (recordText cutRecord) ≠ utf8 (recordText keptRecord) := by decide +kernel
  intro u hu time htime
  rcases List.mem_pair.mp hu with rfl | rfl
  · obtain rfl := Except.ok.inj htime
    intro metadata
    have hmetadata : metadata = keptRecord := by simp [metadata, keptUpload, hhash, keptRecord]
    rw [hmetadata]
    exact if_pos rfl
  · obtain rfl := Except.ok.inj htime
    intro metadata
    have hmetadata : metadata = cutRecord := by
      simp [metadata, cutUpload, keptUpload, hhash, cutRecord, keptRecord]
    rw [hmetadata]
    exact (if_neg hne).trans (if_pos rfl)

theorem uploads_recovered_cut :
    let stored := storeAll sampleRuntime keptCodec .empty [keptUpload, cutUpload]
    let recovered := recoverIncompleteArtifacts sampleRuntime keptCodec stored.2
      [cutUpload.artifactId, keptUpload.artifactId]
    recovered.1 = 1 ∧ recovered.2.get cutUpload.artifactId = none ∧
      loadStoredArtifact sampleRuntime keptCodec recovered.2 keptUpload.artifactId 1715000000 =
        .ok (keptRecord, []) := by
  have hids : ([keptUpload, cutUpload].map Upload.artifactId).Nodup := by decide +kernel
  have hlisting : Lists (storeAll sampleRuntime keptCodec .empty [keptUpload, cutUpload]).2
      [cutUpload.artifactId, keptUpload.artifactId] := by
    decide +kernel
  obtain ⟨hexactly, hserved, hcount, -⟩ :=
    uploads_recovered sampleRuntime hids (by decide +kernel) sample_readsBack hlisting
  intro stored recovered
  have hgone : recovered.2.get cutUpload.artifactId = none := by
    refine ((hexactly cutUpload.artifactId ?_).1).mpr ⟨_, .tail _ (.head _), rfl, ?_⟩
    · refine Option.isSome_iff_ne_none.mp ?_
      decide +kernel
    · decide +kernel
  obtain ⟨hread, -, hload⟩ := hserved _ (.head _) keptRecord (by decide +kernel)
  have hblob : recovered.2.read keptUpload.artifactId "blob" = some [] := hread
  have hkept : (recovered.2.get keptUpload.artifactId).isNone = false := by
    cases hget : recovered.2.get keptUpload.artifactId with
    | some entry => rfl
    | none =>
      rw [ArtifactRoot.read, ArtifactRoot.dir?, hget] at hblob
      cases hblob
  have hremoved : recovered.1 = [cutUpload.artifactId, keptUpload.artifactId].countP
      fun name => (recovered.2.get name).isNone := hcount
  refine ⟨?_, hgone, hload 1715000000 1715472000 (by decide +kernel) (by decide)⟩
  simp only [hremoved, List.countP_cons, List.countP_nil, hkept, hgone, Option.isNone_none]
  rfl

end Janus.Runner
