import Janus.Concurrency.Allowances
import Janus.Runner.RateLimit
import Janus.Web.Accounts

/-! The limit on the logins of a username: each is counted in windows of its own, from the start of the
server on, whatever the others do. -/

namespace Janus.Web.Auth

open Janus.Concurrency Janus.Data Janus.Server

def LoginWindow.fixed (window : LoginWindow) : FixedWindow ℤ := ⟨window.startedAt, window.count⟩

def AuthStore.attemptsOf (s : AuthStore) (username : String) : List LoginAttempt :=
  s.history.attempts.filter fun a => a.username = username

def AuthStore.timesOf (s : AuthStore) (username : String) : List ℤ :=
  (s.attemptsOf username).map LoginAttempt.now

def allowedAttempts (p : ℤ → Prop) [DecidablePred p] (attempts : List LoginAttempt) : ℕ :=
  attempts.countP fun a => a.allowed && decide (p a.now)

def AuthCall.isAttempt : AuthCall → Bool
  | .allowLoginAttempt _ => true
  | _ => false

def AuthStore.Ordered (s : AuthStore) (c : AuthCall) (o : AuthOutcome) : Prop :=
  c.isAttempt = true → ∀ a ∈ s.history.attempts, a.now ≤ o.instant

structure AuthStore.Counted (app : AppState) (s : AuthStore) : Prop where
  ordered : s.history.attempts.Pairwise fun a a' => a.now ≤ a'.now
  windows : ∀ username, (s.loginAttempts.get username).map LoginWindow.fixed =
    FixedWindow.reached app.auth.loginRateLimitPerMinute (loginWindow : ℤ) none (s.timesOf username)
  decided : ∀ username, (s.attemptsOf username).map (fun a => (a.now, a.allowed)) =
    (FixedWindow.uses app.auth.loginRateLimitPerMinute (loginWindow : ℤ) none (s.timesOf username)).map
      fun u => (u.time, u.accepted)

section

variable {app : AppState} {o : AuthOutcome} {s s' : AuthStore} {windows : BTreeMap LoginWindow}
variable {username name : String} {now : Instant} {k : ℕ}

lemma current_fixed (now : Instant) (w? : Option LoginWindow) :
    (if loginWindow ≤ now.durationSince (w?.getD ⟨now, 0⟩).startedAt then ⟨now, 0⟩
      else w?.getD ⟨now, 0⟩ : LoginWindow).fixed =
        FixedWindow.enter (loginWindow : ℤ) now (w?.map LoginWindow.fixed) := by
  unfold FixedWindow.enter FixedWindow.live?
  cases w? with
  | none => simp [Option.filter, LoginWindow.fixed]
  | some window =>
    have hended : loginWindow ≤ now.durationSince window.startedAt ↔
        ¬now < window.startedAt + (loginWindow : ℤ) := Runner.expired_iff (by decide)
    by_cases hlive : now < window.startedAt + (loginWindow : ℤ)
    · have hkept := mt hended.mp (not_not.mpr hlive)
      simp [Option.filter, LoginWindow.fixed, hlive, hkept]
    · have hlate := hended.mpr hlive
      simp [Option.filter, LoginWindow.fixed, hlive, hlate]

lemma allowLoginAttempt_own (app : AppState) (windows : BTreeMap LoginWindow) (username : String)
    (now : Instant) :
    let e := FixedWindow.enter (loginWindow : ℤ) now ((windows.get username).map LoginWindow.fixed)
    let answer := allowLoginAttempt app windows username now
    answer.1 = decide (e.count < app.auth.loginRateLimitPerMinute) ∧
      (answer.2.get username).map LoginWindow.fixed =
        some (FixedWindow.take app.auth.loginRateLimitPerMinute e) := by
  have henter := current_fixed now (windows.get username)
  simp only [allowLoginAttempt]
  generalize (if loginWindow ≤ now.durationSince ((windows.get username).getD ⟨now, 0⟩).startedAt
    then (⟨now, 0⟩ : LoginWindow) else (windows.get username).getD ⟨now, 0⟩) = window at henter ⊢
  rw [← henter]
  by_cases hfull : app.auth.loginRateLimitPerMinute ≤ window.count
  · rw [if_pos hfull, FixedWindow.take_of_le hfull, OrderedMap.get_insert_self]
    exact ⟨(decide_eq_false (Nat.not_lt.mpr hfull)).symm, rfl⟩
  · have hlt := Nat.not_le.mp hfull
    rw [if_neg hfull, FixedWindow.take_of_lt hlt, OrderedMap.get_insert_self]
    exact ⟨(decide_eq_true hlt).symm, rfl⟩

lemma allowLoginAttempt_other {username' : String} (h : username' ≠ username) :
    (allowLoginAttempt app windows username now).2.get username' = windows.get username' := by
  unfold allowLoginAttempt
  simp only
  split <;> split <;> exact OrderedMap.get_insert_of_ne h

lemma attempts_exec {c : AuthCall} {a : Except String c.Result} (h : c.exec app o s = (a, s')) :
    (s'.loginAttempts = s.loginAttempts ∧ s'.history.attempts = s.history.attempts) ∨
      ∃ username, c = .allowLoginAttempt username ∧
        s'.loginAttempts = (allowLoginAttempt app s.loginAttempts username o.instant).2 ∧
        s'.history.attempts = s.history.attempts ++
          [⟨username, o.instant, (allowLoginAttempt app s.loginAttempts username o.instant).1⟩] := by
  simp only [AuthCall.exec] at h
  split at h
  · cases h
    exact .inl ⟨rfl, rfl⟩
  · cases c with
    | allowLoginAttempt username =>
      cases h
      exact .inr ⟨username, rfl, rfl, rfl⟩
    | createSession userId expiresAt login =>
      simp only [AuthCall.perform, AuthStore.createSession] at h
      split at h
      · cases h
        exact .inl ⟨rfl, rfl⟩
      · split at h <;> cases h <;> exact .inl ⟨rfl, rfl⟩
    | createUser username passwordHash role creator =>
      simp only [AuthCall.perform, AuthStore.createUser] at h
      split at h
      · cases h
        exact .inl ⟨rfl, rfl⟩
      · split at h <;> cases h <;> exact .inl ⟨rfl, rfl⟩
    | _ =>
      cases h
      exact .inl ⟨rfl, rfl⟩

lemma counted_exec {c : AuthCall} {a : Except String c.Result} (hs : s.Counted app)
    (hnow : s.Ordered c o) (h : c.exec app o s = (a, s')) : s'.Counted app := by
  obtain ⟨hwindows, hattempts⟩ | ⟨username, rfl, hwindows, hattempts⟩ := attempts_exec h
  · have hof (username : String) : s'.attemptsOf username = s.attemptsOf username :=
      congrArg (List.filter _) hattempts
    refine ⟨hattempts ▸ hs.ordered, fun username => ?_, fun username => ?_⟩
    · rw [hwindows, AuthStore.timesOf, hof]
      exact hs.windows username
    · rw [AuthStore.timesOf, hof]
      exact hs.decided username
  · obtain ⟨hallowed, hwindow⟩ := allowLoginAttempt_own app s.loginAttempts username o.instant
    have hown : s'.attemptsOf username = s.attemptsOf username ++ [⟨username, o.instant,
        (allowLoginAttempt app s.loginAttempts username o.instant).1⟩] := by
      simp [AuthStore.attemptsOf, hattempts]
    have hother (username' : String) (hname : username' ≠ username) :
        s'.attemptsOf username' = s.attemptsOf username' := by
      simp [AuthStore.attemptsOf, hattempts, hname.symm]
    refine ⟨?_, fun username' => ?_, fun username' => ?_⟩
    · rw [hattempts]
      refine List.pairwise_append.mpr ⟨hs.ordered, List.pairwise_singleton _ _, fun a ha b hb => ?_⟩
      exact List.mem_singleton.mp hb ▸ hnow rfl a ha
    · by_cases hname : username' = username
      · subst hname
        rw [hwindows, hwindow, AuthStore.timesOf, hown, List.map_append, List.map_singleton,
          FixedWindow.reached_concat, hs.windows]
        rfl
      · rw [hwindows, allowLoginAttempt_other hname, AuthStore.timesOf, hother username' hname]
        exact hs.windows username'
    · by_cases hname : username' = username
      · subst hname
        have hdecided := hs.decided username'
        have hreached := hs.windows username'
        rw [AuthStore.timesOf] at hdecided hreached ⊢
        simp only [hown, List.map_append, List.map_singleton, FixedWindow.uses_concat, hdecided, hallowed,
          hreached]
        rfl
      · rw [AuthStore.timesOf, hother username' hname]
        exact hs.decided username'

lemma counted_fresh (hwindows : s.loginAttempts = .empty) (hattempts : s.history.attempts = []) :
    s.Counted app := by
  have hof (username : String) : s.attemptsOf username = [] := congrArg (List.filter _) hattempts
  refine ⟨hattempts ▸ .nil, fun username => ?_, fun username => ?_⟩
  · rw [hwindows, AuthStore.timesOf, hof]
    rfl
  · rw [AuthStore.timesOf, hof]
    rfl

lemma allowedAttempts_eq {p : ℤ → Prop} [DecidablePred p] {attempts : List LoginAttempt}
    {us : List (FixedWindow.Use ℤ)}
    (h : attempts.map (fun a => (a.now, a.allowed)) = us.map fun u => (u.time, u.accepted)) :
    allowedAttempts p attempts = FixedWindow.accepted p us := by
  have hcount := congrArg (List.countP fun d => d.2 && decide (p d.1)) h
  rwa [List.countP_map, List.countP_map] at hcount

def looksUp (name : String) : AuthCall → Bool
  | .getUserCredentials username => decide (username = name)
  | _ => false

def allows (name : String) : (c : AuthCall) × Except String c.Result → Bool
  | ⟨.allowLoginAttempt username, answer⟩ =>
    decide (username = name) && (answer : Except String Bool).toOption.getD false
  | _ => false

def AuthCall.unlimited : AuthCall → Prop
  | .getUserCredentials _ => False
  | _ => True

lemma gives_unlimited {α : Type} {p : AuthTask α} (hp : p.Only AuthCall.unlimited) :
    Gives (System.allowance (looksUp name) (allows name)) (fun _ _ => True) p k := by
  refine .of_only (A := fun _ => True) (fun _ _ _ _ _ => trivial) (fun c s hc _ _ hspends => ?_)
    (fun _ _ _ _ _ _ _ _ => trivial) hp trivial
  cases c with
  | getUserCredentials username => exact hc.elim
  | _ => cases hspends

lemma unlimited_currentUser {cookie : Option String} :
    (currentUser app cookie).Only AuthCall.unlimited := by
  unfold currentUser
  split
  · exact .fail _
  · refine .bind (.attempt (Program.Only.request_iff.mpr trivial)) fun answer => ?_
    split
    · exact .ite (fun _ => .pure _) fun _ => .fail _
    · exact .fail _

lemma unlimited_createUser {cookie : Option String} {form : CreateUserForm} :
    (createUser app cookie form).Only AuthCall.unlimited := by
  have hadmin : (adminUser app cookie).Only AuthCall.unlimited :=
    .bind unlimited_currentUser fun _ => .ite (fun _ => .pure _) fun _ => .fail _
  unfold createUser
  -- what the checks compute does not matter
  generalize validateUsername form.username = username, validatePassword form.password = password,
    validateRole form.role = role
  refine .bind hadmin fun _ => .bind unlimited_currentUser fun user => ?_
  refine .bind (.ite (fun _ => .pure _) fun _ => .fail _) fun _ => ?_
  refine .bind (.done username) fun _ => .bind (.done password) fun _ => .bind (.done role) fun role => ?_
  refine .bind (Program.Only.request_iff.mpr trivial) fun hash => ?_
  exact .bind (Program.Only.request_iff.mpr trivial) fun _ => Program.Only.request_iff.mpr trivial

lemma unlimited_startSession {user : User} {login : Credentials} :
    (startSession app user login).Only AuthCall.unlimited := by
  unfold startSession
  refine .bind (.attempt (Program.Only.request_iff.mpr trivial)) fun _ => ?_
  refine .bind (.attempt (Program.Only.request_iff.mpr trivial)) fun _ => ?_
  refine .bind (Program.Only.request_iff.mpr trivial) fun now => ?_
  refine .bind (.attempt (Program.Only.request_iff.mpr trivial)) fun answer => ?_
  split
  · exact .pure _
  · exact .fail _

lemma limited_login {username password : String} :
    Gives (System.allowance (looksUp name) (allows name)) (fun _ _ => True)
      (login app username password) k := by
  refine .ite (fun _ => .fail) fun _ => ?_
  refine .bind (Q := fun (allowed : Bool) k => allowed = true → username = name → 0 < k)
    (.request (P := fun _ => True) trivial (fun _ _ _ _ _ => trivial) fun k _ _ => ?_)
    fun allowed k hk => ?_
  · refine ⟨fun hspends => (by cases hspends), ?_⟩
    rintro _ k' hadmits allowed rfl rfl rfl
    have hearned : k' + 0 = k + (decide (username = username) && true).toNat := hadmits
    simp only [decide_true, Bool.and_true, Bool.toNat_true] at hearned
    omega
  · refine .ite (fun hallowed => ?_) fun _ => .fail
    have hfound : Gives (System.allowance (looksUp name) (allows name)) (fun _ _ => True)
        (call (.getUserCredentials username)) k := by
      refine .request (P := fun k => username = name → 0 < k) (hk hallowed) ?_ fun k hk _ => ⟨?_, ?_⟩
      · rintro k _ hk rfl -
        exact hk
      · exact fun hspends => hk (of_decide_eq_true hspends)
      · exact fun _ _ _ _ _ => trivial
    refine .bind (.attempt hfound) fun answer k _ => ?_
    split
    · exact .ite (fun _ => gives_unlimited unlimited_startSession) fun _ => .fail
    · exact .fail

theorem limited_program {r : AuthRole} :
    Gives (System.allowance (looksUp name) (allows name)) (fun _ _ => True) (r.program app) k := by
  cases r with
  | startup => exact gives_unlimited (Program.Only.request_iff.mpr trivial)
  | login username password => exact .bind limited_login fun _ _ _ => .pure trivial
  | logout cookieHeader =>
    refine gives_unlimited (.bind ?_ fun _ => .pure _)
    unfold logout
    split
    · exact .bind (.attempt (Program.Only.request_iff.mpr trivial)) fun _ => .pure _
    · exact .pure _
  | request cookie => exact gives_unlimited (.bind unlimited_currentUser fun _ => .pure _)
  | createUser cookie form => exact gives_unlimited unlimited_createUser
  | seedUser username password role =>
    refine gives_unlimited (.bind (Program.Only.request_iff.mpr trivial) fun hash => ?_)
    split
    · exact .fail _
    · exact .bind (Program.Only.request_iff.mpr trivial) fun _ => .pure _
  | bootstrapAdmin username password =>
    refine gives_unlimited (.bind (Program.Only.request_iff.mpr trivial) fun count => ?_)
    generalize validateBootstrapAdmin username password = checked
    refine .ite (fun _ => .fail _) fun _ => .bind (.done checked) fun _ => ?_
    refine .bind (Program.Only.request_iff.mpr trivial) fun hash => ?_
    exact .bind (Program.Only.request_iff.mpr trivial) fun _ => Program.Only.request_iff.mpr trivial

end

/-- The clock by which attempts are counted does not go back while the server runs. -/
def Clocked (p : AuthPool) (e : AuthEvent) : Prop :=
  ∀ i o c, e = .step i o → p.call? e = some c → p.store.Ordered c o

lemma counted_apply {app : AppState} {p p' : AuthPool} {e : AuthEvent} (hs : p.store.Counted app)
    (hok : Clocked p e) (ha : (authSystem app).apply p e = some p') : p'.store.Counted app := by
  obtain ⟨r, rfl, -, rfl⟩ | ⟨i, o, r, c, next, rfl, ht, -, rfl⟩ | ⟨i, r, x, rfl, -, rfl⟩ |
    ⟨rfl, rfl⟩ | ⟨v, rfl, rfl⟩ := System.apply_cases ha
  · exact hs
  · exact counted_exec hs (hok i o c rfl (by simp only [Pool.call?, ht])) rfl
  · exact hs
  · exact counted_fresh rfl rfl
  · exact v.elim

/-- From a server on which no login has been tried, along every run in which the clock does not go back: the
attempts with a username since the server was started are decided by a counter of its own, at most
twice the limit of them are allowed in any minute, one is refused only when the limit has been
allowed in the minute before it, and the password is looked up at most once for each allowed attempt. -/
theorem logins_limited {app : AppState} {p q : AuthPool} {es : List AuthEvent} (hidle : p.tasks = [])
    (hwindows : p.store.loginAttempts = .empty) (hattempts : p.store.history.attempts = [])
    (hok : (authSystem app).Along Clocked es p) (hrun : (authSystem app).run es p = some q)
    (username : String) :
    let own := q.store.attemptsOf username
    let limit := app.auth.loginRateLimitPerMinute
    own.map LoginAttempt.allowed =
        (FixedWindow.uses limit (loginWindow : ℤ) none (own.map LoginAttempt.now)).map
          FixedWindow.Use.accepted ∧
      (∀ t, allowedAttempts (fun now => t ≤ now ∧ now ≤ t + loginWindow) own ≤ 2 * limit) ∧
      (∀ pre a post, own = pre ++ a :: post → a.allowed = false →
        limit ≤ allowedAttempts (fun now => a.now < now + loginWindow) pre) ∧
      (authSystem app).countAlong (System.spent (looksUp username)) es p ≤
        (authSystem app).countAlong (System.granted (authSystem app) (allows username)) es p := by
  have hcounted : q.store.Counted app := hok.invariant (I := fun p => p.store.Counted app)
    (fun _ _ _ hs hok ha => counted_apply hs hok ha) (counted_fresh hwindows hattempts) hrun
  have hdecided := hcounted.decided username
  have hsorted : (q.store.timesOf username).Pairwise (· ≤ ·) :=
    List.pairwise_map.mpr (hcounted.ordered.filter _)
  have hpos : (0 : ℤ) < loginWindow := by decide
  intro own limit
  refine ⟨?_, fun t => ?_, fun pre a post hsplit hrefused => ?_, ?_⟩
  · have hanswers := congrArg (List.map Prod.snd) hdecided
    rwa [List.map_map, List.map_map] at hanswers
  · rw [allowedAttempts_eq hdecided]
    exact FixedWindow.accepted_within hpos hsorted t
  · change own.map _ = _ at hdecided
    rw [hsplit, List.map_append, List.map_cons] at hdecided
    obtain ⟨us, us', huses, hus, hus'⟩ := List.map_eq_append_iff.mp hdecided.symm
    obtain ⟨u, post', rfl, hu, -⟩ := List.map_eq_cons_iff.mp hus'
    obtain ⟨htime, haccepted⟩ := Prod.mk.inj hu
    rw [allowedAttempts_eq hus.symm, ← htime]
    exact FixedWindow.accepted_before_refused hsorted huses (haccepted.trans hrefused)
  · refine System.countAlong_spent_le (S := authSystem app) (fun r => ?_) hidle es
    exact Safe.mono (fun _ _ _ => trivial) limited_program

instance (s : AuthStore) (c : AuthCall) (o : AuthOutcome) : Decidable (s.Ordered c o) :=
  inferInstanceAs (Decidable (c.isAttempt = true → ∀ a ∈ s.history.attempts, a.now ≤ o.instant))

instance (p : AuthPool) (e : AuthEvent) : Decidable (Clocked p e) :=
  inferInstanceAs (Decidable (∀ i o c, e = .step i o → p.call? e = some c → p.store.Ordered c o))

def strictAuth : AppState := { sampleAuth with auth := { sampleAuth.auth with loginRateLimitPerMinute := 1 } }

def guesses : List AuthEvent :=
  [.start (.login "admin" "guess"), .step 0 { instant := 0 }, .step 0 {}, .finish 0,
    .start (.login "admin" "guess"), .step 0 { instant := 5000000000 }, .finish 0,
    .start (.login "deploy" "guess"), .step 0 { instant := 7000000000 }, .step 0 {}, .finish 0,
    .start (.login "admin" "guess"), .step 0 { instant := 60000000000 }, .step 0 {}, .finish 0]

theorem logins_limited_guesses :
    ∃ q, (authSystem strictAuth).run guesses noUsers = some q ∧
      q.store.history.attempts.map (fun a => (a.username, a.allowed)) =
        [("admin", true), ("admin", false), ("deploy", true), ("admin", true)] ∧
      allowedAttempts (fun now => 0 ≤ now ∧ now ≤ 0 + loginWindow) (q.store.attemptsOf "admin") ≤ 2 * 1 ∧
      (authSystem strictAuth).countAlong (System.spent (looksUp "admin")) guesses noUsers ≤
        (authSystem strictAuth).countAlong (System.granted (authSystem strictAuth) (allows "admin"))
          guesses noUsers := by
  have hok : (authSystem strictAuth).Along Clocked guesses noUsers := by decide +kernel
  have hrun : ((authSystem strictAuth).run guesses noUsers).any (fun q =>
      q.store.history.attempts.map (fun a => (a.username, a.allowed)) =
        [("admin", true), ("admin", false), ("deploy", true), ("admin", true)]) = true := by
    decide +kernel
  obtain ⟨q, hq, hend⟩ := (Option.any_eq_true _ _).mp hrun
  obtain ⟨-, hwithin, -, hspent⟩ := logins_limited (p := noUsers) rfl rfl rfl hok hq "admin"
  exact ⟨q, hq, of_decide_eq_true hend, hwithin 0, hspent⟩

end Janus.Web.Auth
