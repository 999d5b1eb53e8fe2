import Mathlib.Logic.Function.Basic
import Janus.Concurrency.Pool
import Janus.Server.Models

/-! `atomic_write` of one path by any number of tasks: `storage.rs`. They all write to one temporary
file before they rename it. -/

namespace Janus.Runner.Storage

open Janus.Concurrency Janus.Server

structure Files where
  contents : ℕ → Bytes
  created : ℕ
  path : Option ℕ
  tempPath : Option ℕ

def Files.initial (previous leftover : Option Bytes) : Files where
  contents file := if file = 0 then previous.getD [] else leftover.getD []
  created := 2
  path := previous.map fun _ => 0
  tempPath := leftover.map fun _ => 1

def Files.visible (fs : Files) : Option Bytes := fs.path.map fs.contents

def Files.overwrite (fs : Files) (file : ℕ) (bytes : Bytes) : Files :=
  { fs with contents := Function.update fs.contents file
              (bytes ++ (fs.contents file).drop bytes.length) }

inductive Call
  | createDirAll
  | openTruncated
  | writeAll (file : ℕ) (bytes : Bytes)
  | syncAll (file : ℕ)
  | rename
  | syncDir
  | openPath
  | read (file : ℕ)
  deriving DecidableEq

def Call.Result : Call → Type
  | .openTruncated | .openPath => ℕ
  | .read _ => Bytes
  | _ => Unit

/-- Whether a call fails for reasons of its own, and how much of its bytes have been written then. -/
structure Outcome where
  fails : Option String := none
  written : ℕ := 0
  deriving DecidableEq

def Files.openTruncated (fs : Files) : ℕ × Files :=
  match fs.tempPath with
  | some file => (file, { fs with contents := Function.update fs.contents file [] })
  | none => (fs.created, { fs with
      contents := Function.update fs.contents fs.created []
      created := fs.created + 1
      tempPath := some fs.created })

def Call.succeed : (c : Call) → Files → Except String c.Result × Files
  | .createDirAll, fs | .syncAll _, fs | .syncDir, fs => (.ok (), fs)
  | .openTruncated, fs => (.ok fs.openTruncated.1, fs.openTruncated.2)
  | .writeAll file bytes, fs => (.ok (), fs.overwrite file bytes)
  | .rename, fs =>
    match fs.tempPath with
    | none => (.error "No such file or directory", fs)
    | some file => (.ok (), { fs with path := some file, tempPath := none })
  | .openPath, fs =>
    match fs.path with
    | none => (.error "No such file or directory", fs)
    | some file => (.ok file, fs)
  | .read file, fs => (.ok (fs.contents file), fs)

def Call.fail : Call → ℕ → Files → Files
  | .writeAll file bytes, written, fs => fs.overwrite file (bytes.take written)
  | _, _, fs => fs

def Call.exec (c : Call) (o : Outcome) (fs : Files) : Except String c.Result × Files :=
  match o.fails with
  | some source => (.error source, c.fail o.written fs)
  | none => c.succeed fs

abbrev Task := Program Call Call.Result String

def call (c : Call) : Task c.Result := .request c

def atomicWrite (bytes : Bytes) : Task Unit := do
  let _ ← call .createDirAll
  let file : ℕ ← call .openTruncated
  let _ ← call (.writeAll file bytes)
  let _ ← call (.syncAll file)
  let _ ← call .rename
  let _ ← (call .syncDir).attempt
  pure ()

def readPath : Task Unit := do
  let file : ℕ ← call .openPath
  let _ ← call (.read file)
  pure ()

inductive Role
  | write (bytes : Bytes)
  | read
  deriving DecidableEq

def storage : System Role Call Call.Result String Files Outcome Empty where
  program
    | .write bytes => atomicWrite bytes
    | .read => readPath
  beside _ _ := true
  exec := Call.exec
  environ v := nomatch v

abbrev Run := List (Event Role Outcome Empty)

abbrev State := Pool Role Call Call.Result String Files

def Call.Holds : Call → Prop
  | .writeAll _ _ | .syncAll _ | .rename => True
  | _ => False

instance : DecidablePred Call.Holds := fun c => by cases c <;> unfold Call.Holds <;> infer_instance

def Holding (q : Task Unit) : Prop := match q with
  | .call c _ => c.Holds
  | .done _ => False

instance : DecidablePred Holding := fun q => match q with
  | .call c _ => inferInstanceAs (Decidable c.Holds)
  | .done _ => inferInstanceAs (Decidable False)

/-- The temporary file is opened while no other task has it. -/
def Exclusive (p : State) (e : Event Role Outcome Empty) : Prop :=
  p.call? e = some .openTruncated → ∀ t ∈ p.tasks, ¬Holding t.2

instance (p : State) (e : Event Role Outcome Empty) : Decidable (Exclusive p e) :=
  inferInstanceAs (Decidable (_ → _))

def renamed : Task Unit := do
  let _ ← (call .syncDir).attempt
  pure ()

def synced : Task Unit := do
  let _ ← call .rename
  renamed

def written (file : ℕ) : Task Unit := do
  let _ ← call (.syncAll file)
  synced

def opened (bytes : Bytes) (file : ℕ) : Task Unit := do
  let _ ← call (.writeAll file bytes)
  written file

def created (bytes : Bytes) : Task Unit := do
  let file : ℕ ← call .openTruncated
  opened bytes file

def pathOpened (file : ℕ) : Task Unit := do
  let _ ← call (.read file)
  pure ()

inductive Writes (fs : Files) (bytes : Bytes) (q : Task Unit) : Prop
  | start (h : q = atomicWrite bytes)
  | created (h : q = created bytes)
  | opened (file : ℕ) (h : q = opened bytes file) (htemp : fs.tempPath = some file)
      (hempty : fs.contents file = [])
  | written (file : ℕ) (h : q = written file) (htemp : fs.tempPath = some file)
      (hbytes : fs.contents file = bytes)
  | synced (file : ℕ) (h : q = synced) (htemp : fs.tempPath = some file)
      (hbytes : fs.contents file = bytes)
  | renamed (h : q = renamed)
  | done (result : Except String Unit) (h : q = .done result)

def Whole (previous : Option Bytes) (W : Bytes → Prop) (content : Option Bytes) : Prop :=
  content = previous ∨ ∃ bytes, W bytes ∧ content = some bytes

inductive Reads (previous : Option Bytes) (W : Bytes → Prop) (fs : Files) (q : Task Unit) : Prop
  | start (h : q = readPath)
  | opened (file : ℕ) (h : q = pathOpened file) (hcreated : file < fs.created)
      (htemp : fs.tempPath ≠ some file) (hwhole : Whole previous W (some (fs.contents file)))
  | done (result : Except String Unit) (h : q = .done result)

def Proceeds (previous : Option Bytes) (W : Bytes → Prop) (fs : Files) : Role → Task Unit → Prop
  | .write bytes, q => W bytes ∧ Writes fs bytes q
  | .read, q => Reads previous W fs q

structure Tidy (previous : Option Bytes) (W : Bytes → Prop) (fs : Files) : Prop where
  pathCreated : ∀ file, fs.path = some file → file < fs.created
  tempCreated : ∀ file, fs.tempPath = some file → file < fs.created
  apart : ∀ file, fs.path = some file → fs.tempPath ≠ some file
  whole : Whole previous W fs.visible

structure Orderly (previous : Option Bytes) (W : Bytes → Prop) (p : State) : Prop where
  files : Tidy previous W p.store
  tasks : ∀ t ∈ p.tasks, Proceeds previous W p.store t.1 t.2
  holder : ∀ (i j : ℕ) t t', p.tasks[i]? = some t → p.tasks[j]? = some t' →
    Holding t.2 → Holding t'.2 → i = j

structure Steady (fs fs' : Files) : Prop where
  created : fs.created ≤ fs'.created
  contents : ∀ file < fs.created, fs.tempPath ≠ some file → fs'.contents file = fs.contents file
  temp : ∀ file < fs.created, fs.tempPath ≠ some file → fs'.tempPath ≠ some file

section

variable {previous : Option Bytes} {W : Bytes → Prop} {fs fs' : Files} {q : Task Unit}
variable {bytes : Bytes} {role : Role}

lemma Steady.refl : Steady fs fs := ⟨le_rfl, fun _ _ _ => rfl, fun _ _ h => h⟩

lemma Proceeds.steady (h : Proceeds previous W fs role q) (hnot : ¬Holding q) (hsteady : Steady fs fs') :
    Proceeds previous W fs' role q := by
  cases role with
  | write bytes =>
    refine ⟨h.1, ?_⟩
    cases h.2 with
    | start h => exact .start h
    | created h => exact .created h
    | opened file h =>
      subst h
      exact absurd (show Holding (opened bytes file) from trivial) hnot
    | written file h =>
      subst h
      exact absurd (show Holding (written file) from trivial) hnot
    | synced file h =>
      subst h
      exact absurd (show Holding (synced) from trivial) hnot
    | renamed h => exact .renamed h
    | done result h => exact .done result h
  | read =>
    cases h with
    | start h => exact .start h
    | opened file h hcreated htemp hwhole =>
      refine .opened file h (hcreated.trans_le hsteady.created) (hsteady.temp file hcreated htemp) ?_
      rw [hsteady.contents file hcreated htemp]
      exact hwhole
    | done result h => exact .done result h

structure Acts (previous : Option Bytes) (W : Bytes → Prop) (fs fs' : Files) (c : Call) (role : Role)
    (q' : Task Unit) : Prop where
  files : Tidy previous W fs'
  steady : Steady fs fs'
  proceeds : Proceeds previous W fs' role q'
  holding : Holding q' → c.Holds ∨ c = .openTruncated

lemma Acts.same {c : Call} (hfiles : Tidy previous W fs) (h : Proceeds previous W fs role q)
    (hnot : ¬Holding q ∨ c.Holds) : Acts previous W fs fs c role q where
  files := hfiles
  steady := .refl
  proceeds := h
  holding hq := hnot.elim (absurd hq) .inl

lemma not_holding_done (result : Except String Unit) : ¬Holding (.done result) := nofun

lemma Tidy.whole_of_contents (h : Tidy previous W fs) (hpath : fs'.path = fs.path)
    (hcontents : ∀ file, fs.path = some file → fs'.contents file = fs.contents file) :
    Whole previous W fs'.visible := by
  have hvisible := h.whole
  unfold Files.visible at hvisible ⊢
  rw [hpath]
  cases hfile : fs.path with
  | none => rwa [hfile] at hvisible
  | some file =>
    rw [hfile, Option.map_some] at hvisible
    rwa [Option.map_some, hcontents file hfile]

lemma acts_openTruncated (hfiles : Tidy previous W fs) (hW : W bytes) :
    Acts previous W fs fs.openTruncated.2 .openTruncated (.write bytes)
      (opened bytes fs.openTruncated.1) := by
  unfold Files.openTruncated
  split
  · next file htemp =>
    have hne : ∀ file', fs.tempPath ≠ some file' → file' ≠ file := by
      rintro _ h rfl
      exact h htemp
    refine ⟨⟨hfiles.pathCreated, hfiles.tempCreated, hfiles.apart, ?_⟩,
      ⟨le_rfl, fun file' _ h => Function.update_of_ne (hne file' h) _ _, fun _ _ h => h⟩,
      ⟨hW, .opened file rfl htemp (Function.update_self _ _ _)⟩, fun _ => .inr rfl⟩
    exact hfiles.whole_of_contents rfl fun path hpath =>
      Function.update_of_ne (hne path (hfiles.apart path hpath)) _ _
  · next htemp =>
    have hne : ∀ file < fs.created, file ≠ fs.created := fun _ h => Nat.ne_of_lt h
    refine ⟨⟨fun path hpath => Nat.lt_succ_of_lt (hfiles.pathCreated path hpath), ?_, ?_, ?_⟩,
      ⟨Nat.le_succ _, fun file hfile _ => Function.update_of_ne (hne file hfile) _ _, ?_⟩,
      ⟨hW, .opened fs.created rfl rfl (Function.update_self _ _ _)⟩, fun _ => .inr rfl⟩
    · rintro file h
      obtain rfl := Option.some.inj h
      exact Nat.lt_succ_self _
    · intro path hpath h
      exact hne path (hfiles.pathCreated path hpath) (Option.some.inj h).symm
    · exact hfiles.whole_of_contents rfl fun path hpath =>
        Function.update_of_ne (hne path (hfiles.pathCreated path hpath)) _ _
    · intro file hfile _ h
      exact hne file hfile (Option.some.inj h).symm

lemma acts_writeAll {file : ℕ} {bytes' : Bytes} {c : Call} (hfiles : Tidy previous W fs)
    (htemp : fs.tempPath = some file) (hc : c.Holds)
    (h : Proceeds previous W (fs.overwrite file bytes') role q) :
    Acts previous W fs (fs.overwrite file bytes') c role q := by
  have hne : ∀ file', fs.tempPath ≠ some file' → file' ≠ file := by
    rintro _ hother rfl
    exact hother htemp
  refine ⟨⟨hfiles.pathCreated, hfiles.tempCreated, hfiles.apart, ?_⟩,
    ⟨le_rfl, fun file' _ h => Function.update_of_ne (hne file' h) _ _, fun _ _ h => h⟩, h,
    fun _ => .inl hc⟩
  exact hfiles.whole_of_contents rfl fun path hpath =>
    Function.update_of_ne (hne path (hfiles.apart path hpath)) _ _

lemma acts_rename {file : ℕ} (hfiles : Tidy previous W fs) (htemp : fs.tempPath = some file)
    (hW : W (fs.contents file)) :
    Acts previous W fs { fs with path := some file, tempPath := none } .rename
      (.write (fs.contents file)) renamed where
  files := ⟨fun _ h => hfiles.tempCreated _ (htemp.trans h), fun _ h => absurd h.symm (Option.some_ne_none _),
    fun _ _ => Option.some_ne_none _ ∘ Eq.symm, .inr ⟨fs.contents file, hW, rfl⟩⟩
  steady := ⟨le_rfl, fun _ _ _ => rfl, fun _ _ _ => Option.some_ne_none _ ∘ Eq.symm⟩
  proceeds := ⟨hW, .renamed rfl⟩
  holding _ := .inl trivial

lemma exec_fails {c : Call} {o : Outcome} {source : String} (h : o.fails = some source) :
    c.exec o fs = (.error source, c.fail o.written fs) := by
  rw [Call.exec, h]

lemma exec_succeeds {c : Call} {o : Outcome} (h : o.fails = none) : c.exec o fs = c.succeed fs := by
  rw [Call.exec, h]

lemma acts_write {c : Call} {next : Except String c.Result → Task Unit} {o : Outcome}
    (hfiles : Tidy previous W fs) (hW : W bytes) (h : Writes fs bytes (.call c next)) :
    Acts previous W fs (c.exec o fs).2 c (.write bytes) (next (c.exec o fs).1) ∧
      ∀ source, next (c.exec o fs).1 = .done (.error source) → o.fails = some source := by
  have hdone (result : Except String Unit) : Proceeds previous W fs (.write bytes) (.done result) :=
    ⟨hW, .done result rfl⟩
  cases h with
  | start h =>
    obtain ⟨rfl, rfl⟩ := Program.call.inj h
    cases ho : o.fails with
    | some source =>
      rw [exec_fails ho]
      exact ⟨.same hfiles (hdone (.error source)) (.inl (not_holding_done _)), fun _ h => by cases h; rfl⟩
    | none =>
      rw [exec_succeeds ho]
      exact ⟨.same hfiles ⟨hW, .created rfl⟩ (.inl id), fun _ h => by cases h⟩
  | created h =>
    obtain ⟨rfl, rfl⟩ := Program.call.inj h
    cases ho : o.fails with
    | some source =>
      rw [exec_fails ho]
      exact ⟨.same hfiles (hdone (.error source)) (.inl (not_holding_done _)), fun _ h => by cases h; rfl⟩
    | none =>
      rw [exec_succeeds ho]
      exact ⟨acts_openTruncated hfiles hW, fun _ h => by cases h⟩
  | opened file h htemp hempty =>
    obtain ⟨rfl, rfl⟩ := Program.call.inj h
    cases ho : o.fails with
    | some source =>
      rw [exec_fails ho]
      exact ⟨acts_writeAll hfiles htemp trivial ⟨hW, .done (.error source) rfl⟩, fun _ h => by cases h; rfl⟩
    | none =>
      rw [exec_succeeds ho]
      refine ⟨acts_writeAll hfiles htemp trivial ⟨hW, .written file rfl htemp ?_⟩, fun _ h => by cases h⟩
      simp [Files.overwrite, hempty]
  | written file h htemp hbytes =>
    obtain ⟨rfl, rfl⟩ := Program.call.inj h
    cases ho : o.fails with
    | some source =>
      rw [exec_fails ho]
      exact ⟨.same hfiles (hdone (.error source)) (.inl (not_holding_done _)), fun _ h => by cases h; rfl⟩
    | none =>
      rw [exec_succeeds ho]
      exact ⟨.same hfiles ⟨hW, .synced file rfl htemp hbytes⟩ (.inr trivial), fun _ h => by cases h⟩
  | synced file h htemp hbytes =>
    obtain ⟨rfl, rfl⟩ := Program.call.inj h
    cases ho : o.fails with
    | some source =>
      rw [exec_fails ho]
      exact ⟨.same hfiles (hdone (.error source)) (.inl (not_holding_done _)), fun _ h => by cases h; rfl⟩
    | none =>
      rw [exec_succeeds ho]
      subst hbytes
      simp only [Call.succeed, htemp]
      exact ⟨acts_rename hfiles htemp hW, fun _ h => by cases h⟩
  | renamed h =>
    obtain ⟨rfl, rfl⟩ := Program.call.inj h
    cases ho : o.fails with
    | some source =>
      rw [exec_fails ho]
      exact ⟨.same hfiles (hdone (.ok ())) (.inl (not_holding_done _)), fun _ h => by cases h⟩
    | none =>
      rw [exec_succeeds ho]
      exact ⟨.same hfiles (hdone (.ok ())) (.inl (not_holding_done _)), fun _ h => by cases h⟩
  | done result h => cases h

lemma acts_read {c : Call} {next : Except String c.Result → Task Unit} {o : Outcome}
    (hfiles : Tidy previous W fs) (h : Reads previous W fs (.call c next)) :
    Acts previous W fs (c.exec o fs).2 c .read (next (c.exec o fs).1) := by
  have hdone (result : Except String Unit) : Proceeds previous W fs .read (.done result) :=
    .done result rfl
  cases h with
  | start h =>
    obtain ⟨rfl, rfl⟩ := Program.call.inj h
    cases ho : o.fails with
    | some source =>
      rw [exec_fails ho]
      exact .same hfiles (hdone (.error source)) (.inl (not_holding_done _))
    | none =>
      rw [exec_succeeds ho]
      cases hpath : fs.path with
      | none =>
        simp only [Call.succeed, hpath]
        exact .same hfiles (hdone _) (.inl (not_holding_done _))
      | some file =>
        have hwhole := hfiles.whole
        rw [Files.visible, hpath, Option.map_some] at hwhole
        simp only [Call.succeed, hpath]
        exact .same hfiles (.opened file rfl (hfiles.pathCreated file hpath)
          (hfiles.apart file hpath) hwhole) (.inl id)
  | opened file h hcreated htemp hwhole =>
    obtain ⟨rfl, rfl⟩ := Program.call.inj h
    cases ho : o.fails with
    | some source =>
      rw [exec_fails ho]
      exact .same hfiles (hdone (.error source)) (.inl (not_holding_done _))
    | none =>
      rw [exec_succeeds ho]
      exact .same hfiles (hdone (.ok ())) (.inl (not_holding_done _))
  | done result h => cases h

lemma acts {c : Call} {next : Except String c.Result → Task Unit} {o : Outcome}
    (hfiles : Tidy previous W fs) (h : Proceeds previous W fs role (.call c next)) :
    Acts previous W fs (c.exec o fs).2 c role (next (c.exec o fs).1) := by
  cases role with
  | write bytes => exact (acts_write hfiles h.1 h.2).1
  | read => exact acts_read hfiles h

lemma exec_store {c : Call} {o : Outcome} (hholds : ¬c.Holds) (hopen : c ≠ .openTruncated) :
    (c.exec o fs).2 = fs := by
  cases ho : o.fails with
  | some source =>
    rw [exec_fails ho]
    cases c <;> first | rfl | exact absurd trivial hholds
  | none =>
    rw [exec_succeeds ho]
    cases c with
    | openTruncated => exact absurd rfl hopen
    | openPath =>
      simp only [Call.succeed]
      split <;> rfl
    | writeAll | syncAll | rename => exact absurd trivial hholds
    | createDirAll | syncDir | read => rfl

end

section

variable {previous : Option Bytes} {W : Bytes → Prop} {p p' : State} {e : Event Role Outcome Empty}

lemma not_holding_start (role : Role) : ¬Holding (storage.program role) := by
  cases role <;> exact id

lemma Orderly.start (h : Orderly previous W p) {role : Role}
    (hW : ∀ bytes, role = .write bytes → W bytes) :
    Orderly previous W { p with tasks := p.tasks ++ [(role, storage.program role)] } where
  files := h.files
  tasks t ht := by
    rcases List.mem_append.mp ht with ht | ht
    · exact h.tasks t ht
    · obtain rfl := List.mem_singleton.mp ht
      cases role with
      | write bytes => exact ⟨hW bytes rfl, .start rfl⟩
      | read => exact .start rfl
  holder i j t t' hi hj ht ht' := by
    have hold : ∀ (i : ℕ) t, (p.tasks ++ [(role, storage.program role)])[i]? = some t →
        Holding t.2 → p.tasks[i]? = some t := by
      intro i t hi ht
      by_cases hlt : i < p.tasks.length
      · rwa [List.getElem?_append_left hlt] at hi
      · rw [List.getElem?_append_right (not_lt.mp hlt)] at hi
        obtain rfl := List.mem_singleton.mp (List.mem_of_getElem? hi)
        exact absurd ht (not_holding_start role)
    exact h.holder i j t t' (hold i t hi ht) (hold j t' hj ht') ht ht'

lemma Orderly.finish (h : Orderly previous W p) (k : ℕ) :
    Orderly previous W { p with tasks := p.tasks.eraseIdx k } where
  files := h.files
  tasks t ht := h.tasks t (List.mem_of_mem_eraseIdx ht)
  holder i j t t' hi hj ht ht' := by
    simp only [List.getElem?_eraseIdx] at hi hj
    split at hi <;> split at hj <;> have hij := h.holder _ _ t t' hi hj ht ht' <;> omega

lemma Orderly.step (h : Orderly previous W p) {i : ℕ} {o : Outcome} {role : Role} {c : Call}
    {next : Except String c.Result → Task Unit} (ht : p.tasks[i]? = some (role, .call c next))
    (hexclusive : c = .openTruncated → ∀ t ∈ p.tasks, ¬Holding t.2) :
    Orderly previous W { store := (c.exec o p.store).2
                         tasks := p.tasks.set i (role, next (c.exec o p.store).1) } := by
  have hacts : Acts previous W p.store (c.exec o p.store).2 c role (next (c.exec o p.store).1) :=
    acts h.files (h.tasks _ (List.mem_of_getElem? ht))
  have hi : i < p.tasks.length := (List.getElem?_eq_some_iff.mp ht).1
  have hother : ∀ j t, j ≠ i → p.tasks[j]? = some t → Holding t.2 → ¬c.Holds ∧ c ≠ .openTruncated :=
    fun j t hne hj hholding => ⟨fun hholds => hne (h.holder j i _ _ hj ht hholding hholds),
      fun hopen => hexclusive hopen t (List.mem_of_getElem? hj) hholding⟩
  refine ⟨hacts.files, fun t ht' => ?_, fun j k t t' hj hk hholding hholding' => ?_⟩
  · obtain ⟨j, hj⟩ := List.getElem?_of_mem ht'
    rw [List.getElem?_set] at hj
    split at hj
    · obtain rfl := Option.some.inj hj
      exact hacts.proceeds
    · next hne =>
      have hold := h.tasks t (List.mem_of_getElem? hj)
      by_cases hholding : Holding t.2
      · obtain ⟨hholds, hopen⟩ := hother j t (Ne.symm hne) hj hholding
        simp only [exec_store hholds hopen]
        exact hold
      · exact hold.steady hholding hacts.steady
  · have hnew : ∀ j t, j ≠ i → p.tasks[j]? = some t → Holding t.2 →
        ¬Holding (next (c.exec o p.store).1) := by
      intro j t hne hj hholding hnext
      obtain ⟨hholds, hopen⟩ := hother j t hne hj hholding
      exact (hacts.holding hnext).elim hholds hopen
    rw [List.getElem?_set] at hj hk
    split at hj <;> split at hk
    · omega
    · next hne =>
      obtain rfl := Option.some.inj hj
      exact absurd hholding (hnew k t' (Ne.symm hne) hk hholding')
    · next hne _ =>
      obtain rfl := Option.some.inj hk
      exact absurd hholding' (hnew j t (Ne.symm hne) hj hholding)
    · exact h.holder j k t t' hj hk hholding hholding'

lemma Orderly.apply (h : Orderly previous W p) (hW : ∀ bytes, e = .start (.write bytes) → W bytes)
    (hexclusive : Exclusive p e) (ha : storage.apply p e = some p') : Orderly previous W p' := by
  obtain ⟨role, rfl, -, rfl⟩ | ⟨i, o, role, c, next, rfl, ht, -, rfl⟩ | ⟨i, role, x, rfl, -, rfl⟩ |
    ⟨rfl, rfl⟩ | ⟨v, rfl, rfl⟩ := System.apply_cases ha
  · exact h.start fun bytes hrole => hW bytes (hrole ▸ rfl)
  · refine h.step ht fun hopen => hexclusive ?_
    simp only [Pool.call?, ht, hopen]
  · exact h.finish i
  · exact ⟨h.files, fun _ ht => absurd ht List.not_mem_nil, fun i j t t' hi => by cases hi⟩
  · exact v.elim

def initial (previous leftover : Option Bytes) : State := ⟨.initial previous leftover, []⟩

lemma orderly_initial (leftover : Option Bytes) :
    Orderly previous W (initial previous leftover) where
  files := by
    refine ⟨fun file h => ?_, fun file h => ?_, fun file h h' => ?_, .inl ?_⟩
    · obtain ⟨-, -, rfl⟩ := Option.map_eq_some_iff.mp h
      exact Nat.zero_lt_two
    · obtain ⟨-, -, rfl⟩ := Option.map_eq_some_iff.mp h
      exact Nat.one_lt_two
    · obtain ⟨-, -, rfl⟩ := Option.map_eq_some_iff.mp h
      obtain ⟨-, -, h'⟩ := Option.map_eq_some_iff.mp h'
      cases h'
    · cases previous <;> rfl
  tasks t ht := absurd ht List.not_mem_nil
  holder i j t t' hi := by cases hi

def Written (es : Run) (bytes : Bytes) : Prop := .start (.write bytes) ∈ es

lemma orderly_run {es : Run} (h : Orderly previous W p)
    (hW : ∀ bytes, Written es bytes → W bytes) (hexclusive : storage.Along Exclusive es p)
    (hrun : storage.run es p = some p') : Orderly previous W p' := by
  induction es generalizing p with
  | nil => exact Option.some.inj hrun ▸ h
  | cons e es ih =>
    obtain ⟨q, hq, hrun⟩ := Option.bind_eq_some_iff.mp hrun
    obtain ⟨he, hes⟩ := hexclusive q hq
    refine ih (h.apply (fun bytes hstart => hW bytes ?_) he hq) (fun bytes hmem => hW bytes ?_) hes hrun
    · exact hstart ▸ List.mem_cons_self
    · exact List.mem_cons_of_mem _ hmem

/-- What is seen at the path and by those that read it, and that no call of `atomic_write` fails but
for reasons of its own. -/
structure Atomic (previous : Option Bytes) (W : Bytes → Prop) (p : State) : Prop where
  visible : Whole previous W p.store.visible
  read : ∀ (i : ℕ) role file next, p.tasks[i]? = some (role, .call (.read file) next) →
    Whole previous W (some (p.store.contents file))
  fails : ∀ i o bytes source, storage.result? p (.step i o) = some (.write bytes, .error source) →
    o.fails = some source

lemma Orderly.atomic (h : Orderly previous W p) : Atomic previous W p where
  visible := h.files.whole
  read i role file next ht := by
    have hproceeds := h.tasks _ (List.mem_of_getElem? ht)
    cases role with
    | write bytes =>
      obtain ⟨-, hwrites⟩ := hproceeds
      cases hwrites with
      | start h | created h | opened _ h | written _ h | synced _ h | renamed h =>
        cases (Program.call.inj h).1
      | done result h => cases h
    | read =>
      cases hproceeds with
      | start h => cases (Program.call.inj h).1
      | opened file' h hcreated htemp hwhole =>
        cases (Program.call.inj h).1
        exact hwhole
      | done result h => cases h
  fails i o bytes source hresult := by
    cases ht : p.tasks[i]? with
    | none => simp only [System.result?, ht] at hresult; cases hresult
    | some t =>
      obtain ⟨role, q⟩ := t
      cases q with
      | done result => simp only [System.result?, ht] at hresult; cases hresult
      | call c next =>
        rw [System.result?_step storage ht] at hresult
        obtain ⟨result, hresult, hrole⟩ := Option.map_eq_some_iff.mp hresult
        obtain ⟨rfl, rfl⟩ := Prod.mk.inj hrole
        obtain ⟨hW, hwrites⟩ := h.tasks _ (List.mem_of_getElem? ht)
        refine (acts_write h.files hW hwrites).2 source ?_
        change (next (c.exec o p.store).1).result? = some (.error source) at hresult
        cases hnext : next (c.exec o p.store).1 with
        | done result =>
          rw [hnext] at hresult
          rw [Option.some.inj hresult]
        | call c' next' =>
          rw [hnext] at hresult
          cases hresult

/-- As long as the temporary file is opened by one call at a time, all of them are atomic. -/
theorem atomic_run {leftover : Option Bytes} {es : Run}
    (h : storage.Along Exclusive es (initial previous leftover))
    (hrun : storage.run es (initial previous leftover) = some p) : Atomic previous (Written es) p :=
  (orderly_run (orderly_initial leftover) (fun _ h => h) h hrun).atomic

end

def sampleWrites : Run :=
  [.start (.write [1, 2, 3]), .start .read, .step 0 {}, .step 0 {}, .step 0 {}, .step 0 {},
    .step 0 {}, .step 1 {}, .start (.write [4]), .step 2 {}, .step 2 {}, .step 2 {}]

theorem atomic_run_sample :
    storage.Along Exclusive sampleWrites (initial none (some [9])) ∧
      ∃ p, storage.run sampleWrites (initial none (some [9])) = some p ∧
        Atomic none (Written sampleWrites) p :=
  have h : storage.Along Exclusive sampleWrites (initial none (some [9])) := by decide
  ⟨h, _, rfl, atomic_run h rfl⟩

def mixedWrites : Run :=
  [.start (.write [1, 2, 3]), .start (.write [4]), .step 0 {}, .step 0 {}, .step 1 {}, .step 1 {},
    .step 0 {}, .step 1 {}, .step 0 {}, .step 0 {}]

theorem mixed_contents : ¬∀ (previous leftover : Option Bytes) (es : Run) (p : State),
    storage.run es (initial previous leftover) = some p → Atomic previous (Written es) p := by
  intro h
  obtain hprevious | ⟨bytes, hwritten, hvisible⟩ := (h none none mixedWrites _ rfl).visible
  · cases hprevious
  · have hmixed : bytes = [4, 2, 3] := (Option.some.inj hvisible).symm
    subst hmixed
    simp [Written, mixedWrites] at hwritten

end Janus.Runner.Storage
