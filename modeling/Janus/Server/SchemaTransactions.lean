import Janus.Server.SchemaLoading

/-! What the statements of a connection do, and what its transactions leave behind. -/

namespace Janus.Server

open Janus.Concurrency Janus.Data

def SqlEnv.Faultless (env : SqlEnv) : Prop := ∀ k, env.fails k = none

section

variable {env : SqlEnv} {conn conn' : Connection} {statement : Statement} {tables : SchemaTables}

lemma guard_ok {α : Type} {run : Except String α} {a : α} (h : conn.guard env run = .ok a) :
    run = .ok a := by
  unfold Connection.guard at h
  cases hfails : env.fails conn.executed with
  | some source =>
    rw [hfails] at h
    cases h
  | none => rwa [hfails] at h

lemma guard_of_faultless {α : Type} {run : Except String α} (hfaultless : env.Faultless) :
    conn.guard env run = run := by
  rw [Connection.guard, hfaultless conn.executed]

lemma eval_newUuid {α : Type} (f : String → Sql α) :
    (newUuid >>= f).eval (SqlCall.exec env) conn =
      (f (env.newUuid conn.issued)).eval (SqlCall.exec env) { conn with issued := conn.issued + 1 } :=
  rfl

lemma execute_ok (h : (execute statement).eval (SqlCall.exec env) conn = (.ok (), conn')) :
    conn.tables.run statement = .ok conn'.tables ∧ conn'.issued = conn.issued := by
  change SqlCall.exec env (.execute statement) conn = (.ok (), conn') at h
  simp only [SqlCall.exec] at h
  cases hrun : conn.guard env (conn.tables.run statement) with
  | error source =>
    rw [hrun] at h
    cases h
  | ok tables =>
    rw [hrun] at h
    obtain ⟨-, rfl⟩ := Prod.mk.inj h
    exact ⟨guard_ok hrun, rfl⟩

lemma execute_of_run (conn : Connection) (hfaultless : env.Faultless) (h : conn.tables.run statement = .ok tables) :
    ∃ conn', (execute statement).eval (SqlCall.exec env) conn = (.ok (), conn') := by
  refine ⟨{ conn with tables, executed := conn.executed + 1 }, ?_⟩
  change SqlCall.exec env (.execute statement) conn = _
  simp only [SqlCall.exec, guard_of_faultless hfaultless, h]
  rfl

lemma insertNew_ok {statement : String → Statement}
    (h : (insertNew statement).eval (SqlCall.exec env) conn = (.ok (), conn')) :
    conn.tables.run (statement (env.newUuid conn.issued)) = .ok conn'.tables ∧
      conn'.issued = conn.issued + 1 := by
  rw [insertNew, eval_newUuid] at h
  exact execute_ok h

lemma insertNew_of_run (statement : String → Statement) (hfaultless : env.Faultless)
    (h : conn.tables.run (statement (env.newUuid conn.issued)) = .ok tables) :
    ∃ conn', (insertNew statement).eval (SqlCall.exec env) conn = (.ok (), conn') := by
  rw [insertNew, eval_newUuid]
  exact execute_of_run _ hfaultless h

lemma nextVersion_ok {workflowId : String} {version : ℤ}
    (h : (sql (.nextVersion workflowId) : Sql ℤ).eval (SqlCall.exec env) conn =
      (.ok version, conn')) :
    version = conn.tables.nextVersion workflowId ∧ conn'.tables = conn.tables ∧
      conn'.issued = conn.issued := by
  obtain ⟨hversion, rfl⟩ := Prod.mk.inj h
  exact ⟨(Except.ok.inj (guard_ok hversion)).symm, rfl, rfl⟩

lemma nextVersion_of_faultless (conn : Connection) (workflowId : String) (hfaultless : env.Faultless) :
    ∃ conn', (sql (.nextVersion workflowId) : Sql ℤ).eval (SqlCall.exec env) conn =
      (.ok (conn.tables.nextVersion workflowId), conn') :=
  ⟨_, Prod.ext (guard_of_faultless hfaultless) rfl⟩

lemma begin_ok (h : (sql .begin : Sql Unit).eval (SqlCall.exec env) conn = (.ok (), conn')) :
    conn' = { conn with savepoint := some conn.tables, executed := conn.executed + 1 } := by
  change SqlCall.exec env .begin conn = (.ok (), conn') at h
  simp only [SqlCall.exec] at h
  cases hrun : conn.guard env (.ok ()) with
  | error source =>
    rw [hrun] at h
    cases h
  | ok _ =>
    rw [hrun] at h
    exact (Prod.mk.inj h).2.symm

lemma boundary_tables {c : SqlCall} (hc : c = .begin ∨ c = .commit) {result : Except String c.Result}
    (h : (sql c).eval (SqlCall.exec env) conn = (result, conn')) :
    conn'.tables = conn.tables ∧ conn'.issued = conn.issued := by
  have hkept : (SqlCall.exec env c conn).2.tables = conn.tables ∧
      (SqlCall.exec env c conn).2.issued = conn.issued := by
    rcases hc with rfl | rfl
    · rw [SqlCall.exec]
      split <;> exact ⟨rfl, rfl⟩
    · rw [SqlCall.exec]
      split <;> exact ⟨rfl, rfl⟩
  have hconn : (SqlCall.exec env c conn).2 = conn' := congrArg Prod.snd h
  rwa [hconn] at hkept

lemma commit_error {error : String}
    (h : (sql .commit : Sql Unit).eval (SqlCall.exec env) conn = (.error error, conn')) :
    conn'.savepoint = conn.savepoint := by
  change SqlCall.exec env .commit conn = (.error error, conn') at h
  simp only [SqlCall.exec] at h
  cases hrun : conn.guard env (.ok ()) with
  | error source =>
    rw [hrun] at h
    exact (congrArg Connection.savepoint (Prod.mk.inj h).2).symm
  | ok _ =>
    rw [hrun] at h
    cases h

lemma begin_of_faultless (conn : Connection) (hfaultless : env.Faultless) :
    ∃ conn', (sql .begin : Sql Unit).eval (SqlCall.exec env) conn = (.ok (), conn') := by
  change ∃ conn', SqlCall.exec env .begin conn = (.ok (), conn')
  simp only [SqlCall.exec, guard_of_faultless hfaultless]
  exact ⟨_, rfl⟩

lemma commit_of_faultless (conn : Connection) (hfaultless : env.Faultless) :
    ∃ conn', (sql .commit : Sql Unit).eval (SqlCall.exec env) conn = (.ok (), conn') := by
  change ∃ conn', SqlCall.exec env .commit conn = (.ok (), conn')
  simp only [SqlCall.exec, guard_of_faultless hfaultless]
  exact ⟨_, rfl⟩

end

def SqlCall.Inner : SqlCall → Prop
  | .begin | .commit | .rollback => False
  | .newUuid | .nextVersion _ | .execute _ => True

section

variable {α : Type} {env : SqlEnv} {conn conn' : Connection} {body : Sql α} {a : α}

lemma savepoint_inner (c : SqlCall) (conn : Connection) (hc : c.Inner) :
    (c.exec env conn).2.savepoint = conn.savepoint := by
  cases c with
  | newUuid => rfl
  | nextVersion workflowId => rfl
  | execute statement =>
    simp only [SqlCall.exec]
    cases conn.guard env (conn.tables.run statement) <;> rfl
  | _ => exact hc.elim

lemma savepoint_eval (hbody : body.Only SqlCall.Inner) :
    (body.eval (SqlCall.exec env) conn).2.savepoint = conn.savepoint :=
  Program.eval_only (A := fun conn' : Connection => conn'.savepoint = conn.savepoint)
    (fun c conn' hc hs => (savepoint_inner c conn' hc).trans hs) hbody rfl

lemma committed_ok (h : (committed body).eval (SqlCall.exec env) conn = (.ok a, conn')) :
    ∃ ran, body.eval (SqlCall.exec env) conn = (.ok a, ran) ∧ conn'.tables = ran.tables ∧
      conn'.issued = ran.issued := by
  obtain ⟨b, ran, hran, h⟩ := Program.eval_bind_ok h
  obtain ⟨_, ended, hended, h⟩ := Program.eval_bind_ok h
  obtain ⟨hresult, rfl⟩ := Prod.mk.inj h
  obtain rfl := Except.ok.inj hresult
  exact ⟨ran, hran, boundary_tables (.inr rfl) hended⟩

lemma committed_error (hbody : body.Only SqlCall.Inner) {error : String}
    (h : (committed body).eval (SqlCall.exec env) conn = (.error error, conn')) :
    conn'.savepoint = conn.savepoint := by
  have hsaved : (body.eval (SqlCall.exec env) conn).2.savepoint = conn.savepoint :=
    savepoint_eval hbody
  unfold committed at h
  rcases hran : body.eval (SqlCall.exec env) conn with ⟨source | b, ran⟩
  · rw [Program.eval_bind_of_error hran] at h
    obtain ⟨-, rfl⟩ := Prod.mk.inj h
    rwa [hran] at hsaved
  · rw [Program.eval_bind_of_ok hran] at h
    rw [hran] at hsaved
    rcases hended : (sql .commit : Sql Unit).eval (SqlCall.exec env) ran with ⟨source | _, ended⟩
    · rw [Program.eval_bind_of_error hended] at h
      obtain ⟨-, rfl⟩ := Prod.mk.inj h
      exact (commit_error hended).trans hsaved
    · rw [Program.eval_bind_of_ok hended] at h
      cases h

theorem transaction_error (hbody : body.Only SqlCall.Inner) {error : String}
    (h : (transaction body).eval (SqlCall.exec env) conn = (.error error, conn')) :
    conn'.tables = conn.tables := by
  unfold transaction at h
  rcases hbegin : (sql .begin : Sql Unit).eval (SqlCall.exec env) conn with ⟨source | _, opened⟩
  · rw [Program.eval_bind_of_error hbegin] at h
    obtain ⟨-, rfl⟩ := Prod.mk.inj h
    exact (boundary_tables (.inl rfl) hbegin).1
  · rw [Program.eval_bind_of_ok hbegin, Program.eval_bind_of_ok Program.eval_attempt] at h
    rcases hended : (committed body).eval (SqlCall.exec env) opened with ⟨source | a, ended⟩
    · rw [hended] at h
      obtain ⟨-, rfl⟩ := Prod.mk.inj h
      have hsaved := committed_error hbody hended
      rw [begin_ok hbegin] at hsaved
      change ended.savepoint.getD ended.tables = conn.tables
      rw [hsaved]
      rfl
    · rw [hended] at h
      cases h

theorem transaction_ok (h : (transaction body).eval (SqlCall.exec env) conn = (.ok a, conn')) :
    ∃ opened ran, opened.tables = conn.tables ∧ opened.issued = conn.issued ∧
      body.eval (SqlCall.exec env) opened = (.ok a, ran) ∧ conn'.tables = ran.tables ∧
      conn'.issued = ran.issued := by
  obtain ⟨_, opened, hbegin, h⟩ := Program.eval_bind_ok h
  obtain ⟨result, ended, hended, h⟩ := Program.eval_bind_ok h
  rw [Program.eval_attempt] at hended
  obtain ⟨hresult, rfl⟩ := Prod.mk.inj hended
  cases result with
  | error source => cases h
  | ok b =>
    obtain ⟨hb, rfl⟩ := Prod.mk.inj h
    obtain rfl := Except.ok.inj hb
    obtain ⟨ran, hran, htables⟩ := committed_ok (Prod.ext (Except.ok.inj hresult) rfl)
    exact ⟨opened, ran, (boundary_tables (.inl rfl) hbegin).1, (boundary_tables (.inl rfl) hbegin).2, hran, htables⟩

theorem transaction_of_ok (hfaultless : env.Faultless)
    (h : ∀ opened, opened.tables = conn.tables → opened.issued = conn.issued →
      ∃ a ran, body.eval (SqlCall.exec env) opened = (.ok a, ran)) :
    ∃ a conn', (transaction body).eval (SqlCall.exec env) conn = (.ok a, conn') := by
  obtain ⟨opened, hbegin⟩ := begin_of_faultless conn hfaultless
  obtain ⟨a, ran, hran⟩ := h opened (boundary_tables (.inl rfl) hbegin).1 (boundary_tables (.inl rfl) hbegin).2
  obtain ⟨ended, hended⟩ := commit_of_faultless ran hfaultless
  have hcommitted : (committed body).eval (SqlCall.exec env) opened = (.ok a, ended) := by
    rw [committed, Program.eval_bind_of_ok hran, Program.eval_bind_of_ok hended, Program.eval_pure]
  refine ⟨a, ended, ?_⟩
  rw [transaction, Program.eval_bind_of_ok hbegin]
  refine (Program.eval_bind_of_ok (Program.eval_attempt (p := committed body))).trans ?_
  rw [hcommitted]
  rfl

end

end Janus.Server
