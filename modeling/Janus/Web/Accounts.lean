import Mathlib.Data.List.DropRight
import Janus.Web.Auth

/-! Which cookies are accepted, and where users and sessions come from. -/

namespace Janus.Web.Auth

open Janus.Concurrency Janus.Data Janus.Server

namespace AuthStore

variable (app : AppState) (s : AuthStore)

/-- The password that was submitted for the session is that of its user. -/
def Verifies (S : Session) (U : UserRow) : Prop :=
  U ∈ s.users.rows ∧ U.id = S.userId ∧ U.username = S.login.username ∧
    app.verifyPassword S.login.password U.passwordHash = true

/-- The operator has created the user, or one who is vouched for has, in a session of the latter. -/
inductive Vouched : UserRow → Prop
  | operator {U : UserRow} (stored : U ∈ s.users.rows) (creator : U.creator = .operator) : Vouched U
  | session {U U₀ : UserRow} {S : Session} (stored : U ∈ s.users.rows)
      (creator : U.creator = .session S.id) (valid : validateUsername U.username = .ok ())
      (issued : S ∈ s.history.issued) (verified : s.Verifies app S U₀) (vouched : Vouched U₀) :
      Vouched U

structure Sound (logins : Credentials → Prop) : Prop where
  stored : ∀ S, S ∈ s.sessions.rows ↔ S ∈ s.history.issued ∧ S.id ∉ s.history.ended
  ended : ∀ id ∈ s.history.ended, ∃ S ∈ s.history.issued, S.id = id
  verified : ∀ S ∈ s.history.issued, logins S.login ∧ ∃ U, s.Verifies app S U
  vouched : ∀ U ∈ s.users.rows, s.Vouched app U
  ids : (s.history.issued.map Session.id).Nodup
  usernames : (s.users.rows.map fun U => U.username).Nodup

structure Grows (s s' : AuthStore) : Prop where
  users : ∀ U ∈ s.users.rows, U ∈ s'.users.rows
  issued : ∀ S ∈ s.history.issued, S ∈ s'.history.issued
  ended : ∀ id ∈ s.history.ended, id ∈ s'.history.ended

def Fresh (c : AuthCall) (o : AuthOutcome) : Prop :=
  match c with
  | .createSession _ _ _ => ∀ S ∈ s.history.issued, S.id ≠ o.uuid
  | _ => True

end AuthStore

def AuthRole.cookie : AuthRole → Option String
  | .request cookie | .createUser cookie _ => cookie
  | _ => none

def AuthRole.isOperator : AuthRole → Prop
  | .seedUser _ _ _ | .bootstrapAdmin _ _ => True
  | _ => False

def CarriesCookie (header value : String) : Prop :=
  ∃ part ∈ (header.toList.splitOn ';').map String.ofList, trim part = sessionCookieName ++ "=" ++ value

def AuthRole.LogsOut (app : AppState) (r : AuthRole) (sessionId : String) : Prop :=
  ∃ header, r = .logout (some header) ∧ parseSessionCookie app header = some sessionId ∧
    CarriesCookie header (signedValue app sessionId)

def AuthStore.Knows (app : AppState) (s : AuthStore) (userId : String) (login : Credentials) : Prop :=
  ∃ U ∈ s.users.rows, U.id = userId ∧ U.username = login.username ∧
    app.verifyPassword login.password U.passwordHash = true

def AuthStore.Permits (app : AppState) (logins : Credentials → Prop) (r : AuthRole) (s : AuthStore) :
    AuthCall → Prop
  | .deleteSession id => r.LogsOut app id
  | .deleteSessionsForUser userId => ∃ login : Credentials,
    r = .login login.username login.password ∧ s.Knows app userId login
  | .createSession userId _ login => logins login ∧ s.Knows app userId login
  | .createUser _ _ _ .operator => r.isOperator
  | .createUser username _ _ (.session id) =>
    validateUsername username = .ok () ∧ ∃ S ∈ s.history.issued, S.id = id
  | .userForSession id => r.cookie = some (signedValue app id)
  | _ => True

section

variable {app : AppState} {o : AuthOutcome} {s s' s'' : AuthStore} {logins : Credentials → Prop}

lemma AuthStore.Grows.rfl : s.Grows s := ⟨fun _ h => h, fun _ h => h, fun _ h => h⟩

lemma AuthStore.Grows.trans (h : s.Grows s') (h' : s'.Grows s'') : s.Grows s'' :=
  ⟨fun U hU => h'.users U (h.users U hU), fun S hS => h'.issued S (h.issued S hS),
    fun id hid => h'.ended id (h.ended id hid)⟩

inductive AuthEffect (s s' : AuthStore) (o : AuthOutcome) : AuthCall → Prop
  | kept {c : AuthCall} (users : s'.users = s.users) (sessions : s'.sessions = s.sessions)
      (issued : s'.history.issued = s.history.issued) (ended : s'.history.ended = s.history.ended) :
      AuthEffect s s' o c
  | deleted {c : AuthCall} (p : Session → Bool) (store : s' = s.deleteSessions p)
      (why : ∀ S, p S = true → S.expiresAt ≤ o.now ∨ c = .deleteSessionsForUser S.userId ∨
        c = .deleteSession S.id) : AuthEffect s s' o c
  | session (userId : String) (expiresAt : Timestamp) (login : Credentials)
      (sessions : Table Session.id)
      (inserted : s.sessions.insert? ⟨o.uuid, userId, expiresAt, o.now, login⟩ = some sessions)
      (store : s' = { s with sessions, history := { s.history with
        issued := s.history.issued ++ [⟨o.uuid, userId, expiresAt, o.now, login⟩] } }) :
      AuthEffect s s' o (.createSession userId expiresAt login)
  | user (username passwordHash : String) (role : UserRole) (creator : Creator)
      (users : Table fun U : UserRow => U.id) (newName : ∀ U ∈ s.users.rows, U.username ≠ username)
      (inserted : s.users.insert? ⟨⟨o.uuid, username, role, o.now⟩, passwordHash, creator⟩ = some users)
      (store : s' = { s with users }) :
      AuthEffect s s' o (.createUser username passwordHash role creator)

lemma auth_effect {c : AuthCall} {a : Except String c.Result} (h : c.exec app o s = (a, s')) :
    AuthEffect s s' o c := by
  simp only [AuthCall.exec] at h
  split at h
  · cases h
    exact .kept rfl rfl rfl rfl
  · cases c with
    | cleanupExpiredSessions =>
      cases h
      exact .deleted _ rfl fun S hS => .inl (of_decide_eq_true hS)
    | deleteSessionsForUser userId =>
      cases h
      exact .deleted _ rfl fun S hS => .inr (.inl (congrArg _ (of_decide_eq_true hS).symm))
    | deleteSession sessionId =>
      cases h
      exact .deleted _ rfl fun S hS => .inr (.inr (congrArg _ (of_decide_eq_true hS).symm))
    | createSession userId expiresAt login =>
      simp only [AuthCall.perform, AuthStore.createSession] at h
      split at h
      · cases h
        exact .kept rfl rfl rfl rfl
      · split at h
        · cases h
          exact .kept rfl rfl rfl rfl
        · next sessions hsessions =>
          cases h
          exact .session userId expiresAt login sessions hsessions rfl
    | createUser username passwordHash role creator =>
      simp only [AuthCall.perform, AuthStore.createUser] at h
      split at h
      · cases h
        exact .kept rfl rfl rfl rfl
      · next hname =>
        split at h
        · cases h
          exact .kept rfl rfl rfl rfl
        · next users husers =>
          cases h
          refine .user username passwordHash role creator users (fun U hU heq => hname ?_) husers rfl
          exact List.any_eq_true.mpr ⟨U, hU, decide_eq_true heq⟩
    | _ =>
      cases h
      exact .kept rfl rfl rfl rfl

lemma grows_exec {c : AuthCall} {a : Except String c.Result} (h : c.exec app o s = (a, s')) :
    s.Grows s' := by
  cases auth_effect h with
  | kept users sessions issued ended =>
    exact ⟨fun U hU => users ▸ hU, fun S hS => issued ▸ hS, fun id hid => ended ▸ hid⟩
  | deleted p store why =>
    subst store
    exact ⟨fun _ h => h, fun _ h => h, fun id hid => List.mem_append_left _ hid⟩
  | session userId expiresAt login sessions inserted store =>
    subst store
    exact ⟨fun _ h => h, fun S hS => List.mem_append_left _ hS, fun _ h => h⟩
  | user username passwordHash role creator users newName inserted store =>
    subst store
    refine ⟨fun U hU => ?_, fun _ h => h, fun _ h => h⟩
    have hrows := Table.rows_insert? inserted
    exact hrows ▸ List.mem_append_left _ hU

lemma AuthStore.Verifies.mono {S : Session} {U : UserRow} (h : s.Verifies app S U) (hs : s.Grows s') :
    s'.Verifies app S U :=
  ⟨hs.users U h.1, h.2⟩

lemma AuthStore.Vouched.mono {U : UserRow} (h : s.Vouched app U) (hs : s.Grows s') :
    s'.Vouched app U := by
  induction h with
  | operator stored creator => exact .operator (hs.users _ stored) creator
  | session stored creator valid issued verified vouched ih =>
    exact .session (hs.users _ stored) creator valid (hs.issued _ issued) (verified.mono hs) ih

variable {r : AuthRole}

lemma stored_deleteSessions (hs : s.Sound app logins) (p : Session → Bool) (S : Session) :
    S ∈ (s.deleteSessions p).sessions.rows ↔
      S ∈ s.history.issued ∧ S.id ∉ (s.deleteSessions p).history.ended := by
  have hkept : S ∈ (s.deleteSessions p).sessions.rows ↔ S ∈ s.sessions.rows ∧ ¬ p S = true := by
    simp [AuthStore.deleteSessions, Table.retain]
  have hended : S.id ∈ (s.deleteSessions p).history.ended ↔
      S.id ∈ s.history.ended ∨ ∃ S' ∈ s.sessions.rows, p S' = true ∧ S'.id = S.id := by
    simp [AuthStore.deleteSessions, and_assoc]
  rw [hkept, hended, hs.stored, not_or]
  constructor
  · rintro ⟨⟨hissued, hid⟩, hp⟩
    refine ⟨hissued, hid, ?_⟩
    rintro ⟨S', hS', hp', heq⟩
    obtain rfl := Table.eq_of_mem hS' ((hs.stored S).mpr ⟨hissued, hid⟩) heq
    exact hp hp'
  · rintro ⟨hissued, hid, hnone⟩
    exact ⟨⟨hissued, hid⟩, fun hp => hnone ⟨S, (hs.stored S).mpr ⟨hissued, hid⟩, hp, rfl⟩⟩

def AuthStore.Takes (app : AppState) (s : AuthStore) (r : AuthRole) (o : AuthOutcome) (S : Session) :
    Prop :=
  S.expiresAt ≤ o.now ∨ r.LogsOut app S.id ∨
    ∃ login : Credentials, r = .login login.username login.password ∧ s.Knows app S.userId login

lemma takes_exec {c : AuthCall} {a : Except String c.Result} (hpermits : s.Permits app logins r c)
    (h : c.exec app o s = (a, s')) {S : Session} (hS : S ∈ s.sessions.rows)
    (hgone : S ∉ s'.sessions.rows) : s.Takes app r o S := by
  cases auth_effect h with
  | kept users sessions issued ended => exact absurd (sessions ▸ hS) hgone
  | deleted p store why =>
    subst store
    have hp : p S = true := by
      by_contra hkept
      refine hgone (List.mem_filter.mpr ⟨hS, ?_⟩)
      rw [Bool.not_eq_true] at hkept
      rw [hkept]
      rfl
    obtain hexpired | rfl | rfl := why S hp
    · exact .inl hexpired
    · exact .inr (.inr hpermits)
    · exact .inr (.inl hpermits)
  | session userId expiresAt login sessions inserted store =>
    subst store
    exact absurd (Table.rows_insert? inserted ▸ List.mem_append_left _ hS) hgone
  | user username passwordHash role creator users newName inserted store =>
    subst store
    exact absurd hS hgone

theorem sound_exec {c : AuthCall} {a : Except String c.Result} (hs : s.Sound app logins)
    (hpermits : s.Permits app logins r c) (hfresh : s.Fresh c o) (h : c.exec app o s = (a, s')) :
    s'.Sound app logins := by
  have hgrows := grows_exec h
  have hvouched {U : UserRow} (hU : U ∈ s.users.rows) : s'.Vouched app U :=
    (hs.vouched U hU).mono hgrows
  have hverified {S : Session} (hS : S ∈ s.history.issued) :
      logins S.login ∧ ∃ U, s'.Verifies app S U := by
    obtain ⟨hlogin, U, hU⟩ := hs.verified S hS
    exact ⟨hlogin, U, hU.mono hgrows⟩
  cases auth_effect h with
  | kept users sessions issued ended =>
    constructor
    · rw [sessions, issued, ended]
      exact hs.stored
    · rw [issued, ended]
      exact hs.ended
    · rw [issued]
      exact fun S hS => hverified hS
    · rw [users]
      exact fun U hU => hvouched hU
    · rw [issued]
      exact hs.ids
    · rw [users]
      exact hs.usernames
  | deleted p store why =>
    subst store
    refine ⟨stored_deleteSessions hs p, fun id hid => ?_, fun S hS => hverified hS,
      fun U hU => hvouched hU, hs.ids, hs.usernames⟩
    rcases List.mem_append.mp hid with hid | hid
    · exact hs.ended id hid
    · obtain ⟨S, hS, rfl⟩ := List.mem_map.mp hid
      exact ⟨S, ((hs.stored S).mp (List.mem_filter.mp hS).1).1, rfl⟩
  | session userId expiresAt login sessions inserted store =>
    have hrows := Table.rows_insert? inserted
    obtain ⟨hlogin, U, hU, hid, hname, hpassword⟩ := hpermits
    have hnew : o.uuid ∉ s.history.ended := by
      intro hmem
      obtain ⟨S, hS, heq⟩ := hs.ended _ hmem
      exact hfresh S hS heq
    subst store
    refine ⟨fun S => ?_, fun id hid => ?_, fun S hS => ?_, fun U hU => hvouched hU, ?_, hs.usernames⟩
    · rw [hrows, List.mem_append, List.mem_append, List.mem_singleton, hs.stored]
      constructor
      · rintro (⟨hissued, hid⟩ | rfl)
        · exact ⟨.inl hissued, hid⟩
        · exact ⟨.inr rfl, hnew⟩
      · rintro ⟨hissued | rfl, hid⟩
        · exact .inl ⟨hissued, hid⟩
        · exact .inr rfl
    · obtain ⟨S, hS, hid⟩ := hs.ended id hid
      exact ⟨S, List.mem_append_left _ hS, hid⟩
    · rcases List.mem_append.mp hS with hS | hS
      · exact hverified hS
      · obtain rfl := List.mem_singleton.mp hS
        exact ⟨hlogin, U, hU, hid, hname, hpassword⟩
    · rw [List.map_append]
      refine List.nodup_append.mpr ⟨hs.ids, List.nodup_singleton _, fun id hid id' hid' heq => ?_⟩
      obtain ⟨S, hS, rfl⟩ := List.mem_map.mp hid
      exact hfresh S hS (heq.trans (List.mem_singleton.mp hid'))
  | user username passwordHash role creator users newName inserted store =>
    have hrows := Table.rows_insert? inserted
    subst store
    refine ⟨hs.stored, hs.ended, fun S hS => hverified hS, fun U hU => ?_, hs.ids, ?_⟩
    · rw [hrows] at hU
      rcases List.mem_append.mp hU with hU | hU
      · exact hvouched hU
      · have hstored : U ∈ users.rows := hrows ▸ List.mem_append_right _ hU
        obtain rfl := List.mem_singleton.mp hU
        cases creator with
        | operator => exact .operator hstored rfl
        | session id =>
          obtain ⟨hvalid, S, hS, rfl⟩ := hpermits
          obtain ⟨-, U₀, hU₀⟩ := hs.verified S hS
          exact .session hstored rfl hvalid hS (hU₀.mono hgrows) (hvouched hU₀.1)
    · rw [hrows, List.map_append]
      refine List.nodup_append.mpr ⟨hs.usernames, List.nodup_singleton _, ?_⟩
      intro name hname name' hname' heq
      obtain ⟨U, hU, rfl⟩ := List.mem_map.mp hname
      exact newName U hU (heq.trans (List.mem_singleton.mp hname'))

end

lemma eq_of_rsplitDot {text before after : String} (h : rsplitDot text = some (before, after)) :
    text = before ++ "." ++ after := by
  unfold rsplitDot at h
  split at h
  · cases h
  · next start dot rest hspan =>
    obtain ⟨rfl, rfl⟩ := Prod.mk.inj (Option.some.inj h)
    rw [List.span_eq_takeWhile_dropWhile] at hspan
    obtain ⟨hstart, hrest⟩ := Prod.mk.inj hspan
    have hdot : dot = '.' := by
      have hne := List.head?_dropWhile_not (fun c : Char => decide (c ≠ '.')) text.toList.reverse
      rw [hrest] at hne
      simpa using hne
    have hwhole := List.takeWhile_append_dropWhile (p := fun c : Char => decide (c ≠ '.'))
      (l := text.toList.reverse)
    rw [hstart, hrest, hdot] at hwhole
    apply String.toList_inj.mp
    have := congrArg List.reverse hwhole
    simpa using this.symm

lemma eq_of_verifySignedCookie {app : AppState} {value id : String}
    (h : verifySignedCookie app value = some id) : value = signedValue app id := by
  unfold verifySignedCookie at h
  split at h
  · cases h
  · next sessionId signature hsplit =>
    split at h
    · next hsign =>
      obtain rfl := Option.some.inj h
      rw [eq_of_rsplitDot hsplit, signedValue, hsign]
    · cases h

lemma eq_of_stripPrefix {start text rest : String} (h : stripPrefix start text = some rest) :
    text = start ++ rest := by
  unfold stripPrefix at h
  split at h
  · next hprefix =>
    obtain ⟨chars, hchars⟩ := List.isPrefixOf_iff_prefix.mp hprefix
    obtain rfl := Option.some.inj h
    apply String.toList_inj.mp
    rw [String.toList_append, String.toList_ofList, ← hchars, ← String.length_toList, List.drop_left]
  · cases h

lemma exists_of_parseSessionCookieParts {app : AppState} {parts : List String} {id : String}
    (h : parseSessionCookieParts app parts = some id) :
    ∃ part ∈ parts, trim part = sessionCookieName ++ "=" ++ signedValue app id := by
  induction parts with
  | nil => cases h
  | cons part parts ih =>
    unfold parseSessionCookieParts at h
    split at h
    · next rawValue hstrip =>
      obtain rfl := eq_of_verifySignedCookie h
      exact ⟨part, List.mem_cons_self, eq_of_stripPrefix hstrip⟩
    · obtain ⟨part', hmem, hpart⟩ := ih h
      exact ⟨part', List.mem_cons_of_mem _ hmem, hpart⟩

lemma logsOut_of_parse {app : AppState} {cookieHeader : Option String} {id : String}
    (h : cookieHeader.bind (parseSessionCookie app) = some id) :
    (AuthRole.logout cookieHeader).LogsOut app id := by
  obtain ⟨header, rfl, hparse⟩ := Option.bind_eq_some_iff.mp h
  exact ⟨header, rfl, hparse, exists_of_parseSessionCookieParts hparse⟩

def guarding (app : AppState) (logins : Credentials → Prop) (r : AuthRole) :
    Discipline AuthCall AuthCall.Result String AuthStore where
  rely := AuthStore.Grows
  inv s := s.Sound app logins
  admits c s a s' := ∃ o, s.Fresh c o ∧ c.exec app o s = (a, s')
  before c s := s.Permits app logins r c

def AuthCall.isPlain : AuthCall → Prop
  | .deleteSession _ | .deleteSessionsForUser _ | .createSession _ _ _ | .createUser _ _ _ _
  | .userForSession _ => False
  | _ => True

def Stays (A : AuthStore → Prop) : Prop := ∀ s s', A s → s.Grows s' → A s'

section

variable {app : AppState} {logins : Credentials → Prop} {r : AuthRole} {s : AuthStore}
variable {A : AuthStore → Prop} {α : Type}

lemma permits_of_isPlain {c : AuthCall} (h : c.isPlain) : s.Permits app logins r c := by
  cases c with
  | deleteSession id => exact h.elim
  | deleteSessionsForUser userId => exact h.elim
  | createSession userId expiresAt login => exact h.elim
  | createUser username passwordHash role creator => exact h.elim
  | userForSession id => exact h.elim
  | _ => trivial

lemma gives_plain {p : AuthTask α} (hA : Stays A) (hp : p.Only AuthCall.isPlain) (hs : A s) :
    Gives (guarding app logins r) (fun _ => A) p s :=
  .of_only (fun s s' hs hr _ => hA s s' hs hr) (fun _ _ hc _ _ => permits_of_isPlain hc)
    (fun _ s _ s' _ hs _ ⟨_, _, ho⟩ => hA s s' hs (grows_exec ho)) hp hs

lemma gives_call {c : AuthCall} {Q : c.Result → AuthStore → Prop} (hA : Stays A)
    (hbefore : ∀ s, A s → s.Permits app logins r c)
    (hQ : ∀ s o a s', s.Sound app logins → A s → A s' → s.Grows s' → c.exec app o s = (.ok a, s') → Q a s')
    (hs : A s) : Gives (guarding app logins r) Q (call c) s := by
  refine .request hs (fun s s' hs hr _ => hA s s' hs hr) fun s' hs' hinv => ⟨hbefore s' hs', ?_⟩
  rintro a s'' ⟨o, -, ho⟩ b rfl
  have hgrows := grows_exec ho
  exact hQ s' o b s'' hinv hs' (hA s' s'' hs' hgrows) hgrows ho

lemma safe_kept {p : AuthTask α} {Q : α → AuthStore → Prop} (hA : Stays A)
    (hp : Gives (guarding app logins r) Q p s) (hs : A s) :
    Safe (guarding app logins r) (fun x s' => (∀ a, x = .ok a → Q a s') ∧ A s') p s := by
  refine Safe.frame (fun s s' h hr => hA s s' h hr) ?_ hp hs
  rintro c s x s' h - ⟨o, -, ho⟩
  exact hA s s' h (grows_exec ho)

lemma stays_knows {userId : String} {login : Credentials} : Stays fun s => s.Knows app userId login :=
  fun _ _ ⟨U, hU, h⟩ hs => ⟨U, hs.users U hU, h⟩

lemma gives_startSession {user : User} {login : Credentials} (hlogin : logins login)
    (hr : r = .login login.username login.password) (hs : s.Knows app user.id login) :
    Gives (guarding app logins r) (fun _ _ => True) (startSession app user login) s := by
  refine .bind (gives_plain stays_knows (.attempt (Program.Only.request_iff.mpr trivial)) hs)
    fun _ s₁ hs₁ => ?_
  have hdelete : Gives (guarding app logins r) (fun _ _ => True)
      (call (.deleteSessionsForUser user.id)) s₁ :=
    gives_call stays_knows (fun s hs => ⟨login, hr, hs⟩) (fun _ _ _ _ _ _ _ _ _ => trivial) hs₁
  refine .bind (.attempt (safe_kept stays_knows hdelete hs₁)) fun _ s₂ hs₂ => ?_
  refine .bind (gives_plain stays_knows (Program.Only.request_iff.mpr trivial) hs₂.2) fun now s₃ hs₃ => ?_
  refine .bind (.attempt (gives_call (Q := fun _ _ => True) stays_knows (fun s hs => ⟨hlogin, hs⟩)
    (fun _ _ _ _ _ _ _ _ _ => trivial) hs₃)) fun answer s₄ _ => ?_
  split
  · exact .pure trivial
  · exact .fail

theorem gives_login {username password : String} (hlogin : logins ⟨username, password⟩)
    (hr : r = .login username password) :
    Gives (guarding app logins r) (fun _ _ => True) (login app username password) s := by
  refine .ite (fun _ => .fail) fun _ => ?_
  refine .bind (gives_plain (A := fun _ => True) (fun _ _ _ _ => trivial)
    (Program.Only.request_iff.mpr trivial) trivial) fun allowed s₁ _ => .ite (fun _ => ?_) fun _ => .fail
  refine .bind (.attempt (gives_call (c := .getUserCredentials username) (A := fun _ => True)
    (Q := fun (found : Option (User × String)) s => ∀ user hash, found = some (user, hash) →
      app.verifyPassword password hash = true → s.Knows app user.id ⟨username, password⟩)
    (fun _ _ _ _ => trivial) (fun _ _ => trivial) ?_ trivial)) fun answer s₂ hs₂ => ?_
  · rintro s o found s' - - - - ho user hash rfl hpassword
    simp only [AuthCall.exec] at ho
    split at ho
    · cases ho
    · obtain ⟨hfound, rfl⟩ := Prod.mk.inj ho
      obtain ⟨U, hU, hrow⟩ := Option.map_eq_some_iff.mp (Except.ok.inj hfound)
      obtain ⟨rfl, rfl⟩ := Prod.mk.inj hrow
      exact ⟨U, List.mem_of_find?_eq_some hU, rfl, by simpa using List.find?_some hU, hpassword⟩
  · split
    · next user hash =>
      refine .ite (fun hpassword => ?_) fun _ => .fail
      exact gives_startSession hlogin hr (hs₂ _ rfl user hash rfl hpassword)
    · exact .fail

def AuthStore.HasIssued (app : AppState) (s : AuthStore) (cookie : Option String) : Prop :=
  ∃ S ∈ s.history.issued, S.id = (cookie.bind (verifySignedCookie app)).getD ""

lemma stays_hasIssued {cookie : Option String} : Stays fun s => s.HasIssued app cookie :=
  fun _ _ ⟨S, hS, h⟩ hs => ⟨S, hs.issued S hS, h⟩

lemma session_of_userForSession {sessionId : String} {now : Timestamp} {user : User}
    (h : s.userForSession sessionId now = some user) : ∃ S ∈ s.sessions.rows, S.id = sessionId ∧
      now < S.expiresAt ∧ ∃ U ∈ s.users.rows, U.id = S.userId ∧ U.toUser = user := by
  obtain ⟨S, hS, hif⟩ := Option.bind_eq_some_iff.mp h
  split at hif
  · next hlive =>
    obtain ⟨U, hU, huser⟩ := Option.map_eq_some_iff.mp hif
    have hid : U.id = S.userId := by simpa using List.find?_some hU
    exact ⟨S, Table.mem_of_find? hS, Table.key_of_find? hS, hlive, U, Table.mem_of_find? hU, hid, huser⟩
  · cases hif

lemma gives_currentUser {cookie : Option String} (hr : r.cookie = cookie) :
    Gives (guarding app logins r) (fun _ s => s.HasIssued app cookie) (currentUser app cookie) s := by
  unfold currentUser
  split
  · exact .fail
  · next sessionId hcookie =>
    obtain ⟨value, rfl, hverified⟩ := Option.bind_eq_some_iff.mp hcookie
    obtain rfl := eq_of_verifySignedCookie hverified
    refine .bind (.attempt (gives_call (c := .userForSession sessionId) (A := fun _ => True)
      (Q := fun (found : Option User) s => ∀ user, found = some user →
        s.HasIssued app (some (signedValue app sessionId)))
      (fun _ _ _ _ => trivial) (fun _ _ => hr) ?_ trivial)) fun answer s₁ hs₁ => ?_
    · rintro s o found s' hsound - - - ho user rfl
      simp only [AuthCall.exec] at ho
      split at ho
      · cases ho
      · obtain ⟨hfound, rfl⟩ := Prod.mk.inj ho
        obtain ⟨S, hS, hid, -⟩ := session_of_userForSession (Except.ok.inj hfound)
        refine ⟨S, ((hsound.stored S).mp hS).1, hid.trans ?_⟩
        exact congrArg (Option.getD · "") hcookie.symm
    · split
      · next user => exact .ite (fun _ => .pure (hs₁ _ rfl user rfl)) fun _ => .fail
      · exact .fail

lemma trim_trim (text : String) : trim (trim text) = trim text := by
  have htrim (text : String) : (trim text).toList =
      (text.toList.dropWhile isWhitespace).rdropWhile isWhitespace := by
    simp [trim, List.rdropWhile]
  apply String.toList_inj.mp
  rw [htrim (trim text), htrim text]
  generalize hl : text.toList.dropWhile isWhitespace = l
  have hstart : (l.rdropWhile isWhitespace).dropWhile isWhitespace = l.rdropWhile isWhitespace := by
    apply List.dropWhile_eq_self_iff.mpr
    intro hpos
    have hstart := List.rdropWhile_prefix isWhitespace (l := l)
    have hlong : 0 < l.length := hpos.trans_le hstart.length_le
    have hhead : (l.rdropWhile isWhitespace)[0] = l[0] := hstart.getElem hpos
    have hfirst := List.dropWhile_eq_self_iff.mp (by rw [← hl]; exact List.dropWhile_idempotent _ _) hlong
    rwa [hhead]
  rw [hstart]
  exact List.rdropWhile_idempotent _ _

lemma validateUsername_trim (username : String) :
    validateUsername (trim username) = validateUsername username := by
  simp only [validateUsername, trim_trim]

lemma gives_createUser {cookie : Option String} {form : CreateUserForm} (hr : r.cookie = cookie) :
    Gives (guarding app logins r) (fun _ _ => True) (createUser app cookie form) s := by
  have hadmin : Gives (guarding app logins r) (fun _ _ => True) (adminUser app cookie) s :=
    .bind (gives_currentUser hr) fun _ _ _ => .ite (fun _ => .pure trivial) fun _ => .fail
  unfold createUser
  generalize hname : validateUsername form.username = username, validatePassword form.password = password,
    validateRole form.role = role
  refine .bind hadmin fun _ s₁ _ => .bind (gives_currentUser hr) fun user s₂ hs₂ => ?_
  refine .bind (Q := fun _ s => s.HasIssued app cookie) (.ite (fun _ => .pure hs₂) fun _ => .fail)
    fun _ s₃ hs₃ => ?_
  apply Gives.check
  intro _ hvalid
  rw [← hname] at hvalid
  refine .check fun _ _ => .check fun role _ => ?_
  refine .bind (gives_plain stays_hasIssued (Program.Only.request_iff.mpr trivial) hs₃) fun hash s₄ hs₄ => ?_
  refine .bind (gives_call (Q := fun _ _ => True) stays_hasIssued (fun s hs => ?_)
    (fun _ _ _ _ _ _ _ _ _ => trivial) hs₄) fun _ s₅ _ => ?_
  · rw [← validateUsername_trim] at hvalid
    exact ⟨hvalid, hs⟩
  · exact gives_plain (fun _ _ _ _ => trivial) (Program.Only.request_iff.mpr trivial) trivial

lemma gives_operator {username hash : String} {role : UserRole} {f : String → AuthTask Unit}
    (hr : r.isOperator) (hf : ∀ id, (f id).Only AuthCall.isPlain) :
    Gives (guarding app logins r) (fun _ _ => True)
      (call (.createUser username hash role .operator) >>= f) s := by
  refine .bind (gives_call (A := fun _ => True) (Q := fun _ _ => True) (fun _ _ _ _ => trivial)
    (fun _ _ => hr) (fun _ _ _ _ _ _ _ _ _ => trivial) trivial) fun id s₂ _ => ?_
  exact gives_plain (fun _ _ _ _ => trivial) (hf id) trivial

theorem gives_program (hlogins : ∀ username password, r = .login username password →
    logins ⟨username, password⟩) :
    Gives (guarding app logins r) (fun _ _ => True) (r.program app) s := by
  have hcall (c : AuthCall) (hc : c.isPlain) (s : AuthStore) :
      Gives (guarding app logins r) (fun _ _ => True) (call c) s :=
    gives_plain (fun _ _ _ _ => trivial) (Program.Only.request_iff.mpr hc) trivial
  cases r with
  | startup => exact hcall .cleanupExpiredSessions trivial s
  | login username password =>
    exact .bind (gives_login (hlogins username password rfl) rfl) fun _ _ _ => .pure trivial
  | logout cookieHeader =>
    refine .bind (Q := fun _ _ => True) ?_ fun _ _ _ => .pure trivial
    unfold logout
    split
    · next sessionId hcookie =>
      refine .bind (.attempt (gives_call (A := fun _ => True) (Q := fun _ _ => True)
        (fun _ _ _ _ => trivial) (fun _ _ => logsOut_of_parse hcookie)
        (fun _ _ _ _ _ _ _ _ _ => trivial) trivial)) fun _ _ _ => .pure trivial
    · exact .pure trivial
  | request cookie => exact .bind (gives_currentUser rfl) fun _ _ _ => .pure trivial
  | createUser cookie form => exact gives_createUser rfl
  | seedUser username password role =>
    refine .bind (hcall (.hashPassword password) trivial s) fun hash s₁ _ => ?_
    split
    · exact .fail
    · exact gives_operator trivial fun _ => .pure _
  | bootstrapAdmin username password =>
    simp only [AuthRole.program, bootstrapAdmin]
    refine .bind (hcall .userCount trivial s) fun count s₁ _ => .ite (fun _ => .fail) fun _ => ?_
    generalize validateBootstrapAdmin username password = checked
    refine .check fun _ _ => ?_
    refine .bind (hcall (.hashPassword password) trivial s₁) fun hash s₂ _ => ?_
    exact gives_operator trivial fun _ => Program.Only.request_iff.mpr trivial

end

def Issues (p : AuthPool) (e : AuthEvent) : Prop :=
  ∀ i o c, e = .step i o → p.call? e = some c → p.store.Fresh c o

def Tries (logins : Credentials → Prop) (e : AuthEvent) : Prop :=
  ∀ username password, e.start? = some (.login username password) → logins ⟨username, password⟩

theorem guardingOutline (app : AppState) (logins : Credentials → Prop) :
    System.Outline (authSystem app) (fun p e => Tries logins e ∧ Issues p e) (fun s => s.Sound app logins)
      (guarding app logins) fun _ _ _ => True where
  inv_eq _ := rfl
  trans _ _ _ _ h h' := h.trans h'
  post_stable _ _ _ _ _ _ := trivial
  refl _ _ := .rfl
  start p r _ hok := by
    refine Safe.mono (fun _ _ _ => trivial) (gives_program fun username password hr => ?_)
    exact hok.1 username password (congrArg some hr)
  admits p i o r c next _ hok ht _ := ⟨o, hok.2 i o c rfl (by simp only [Pool.call?, ht]), rfl⟩
  keeps r s s' hs := by
    rintro ⟨c, a, hpermits, o, hfresh, ho⟩
    exact sound_exec hs hpermits hfresh ho
  compat p i o r c next r' _ _ _ _ _ _ := by
    rintro ⟨o, -, ho⟩
    exact grows_exec ho
  environ _ v := v.elim
  crash p _ hs := by
    have hgrows : p.store.Grows ((authSystem app).crashed p.store) :=
      ⟨fun _ h => h, fun _ h => h, fun _ h => h⟩
    refine ⟨hs.stored, hs.ended, fun S hS => ?_, fun U hU => (hs.vouched U hU).mono hgrows, hs.ids,
      hs.usernames⟩
    obtain ⟨hlogin, U, hU⟩ := hs.verified S hS
    exact ⟨hlogin, U, hU.mono hgrows⟩

def Accepts (app : AppState) (p : AuthPool) (e : AuthEvent) : Prop :=
  ∀ i o r id next, e = .step i o → p.tasks[i]? = some (r, .call (.userForSession id) next) →
    r.cookie = some (signedValue app id) ∧ (o.error = none →
      ∃ found, (AuthCall.exec app o p.store (.userForSession id)).1 = .ok found ∧ ∀ user : User,
        found = some user ↔ ∃ S ∈ p.store.history.issued, S.id = id ∧ id ∉ p.store.history.ended ∧
          o.now < S.expiresAt ∧ ∃ U, p.store.Verifies app S U ∧ U.toUser = user)

def Ends (app : AppState) (p : AuthPool) (e : AuthEvent) : Prop :=
  ∀ i o r c next, e = .step i o → p.tasks[i]? = some (r, .call c next) → ∀ S ∈ p.store.sessions.rows,
    S ∉ (c.exec app o p.store).2.sessions.rows → p.store.Takes app r o S

lemma userForSession_iff {app : AppState} {logins : Credentials → Prop} {s : AuthStore}
    (hs : s.Sound app logins) {id : String} {now : Timestamp} {user : User} :
    s.userForSession id now = some user ↔ ∃ S ∈ s.history.issued, S.id = id ∧ id ∉ s.history.ended ∧
      now < S.expiresAt ∧ ∃ U, s.Verifies app S U ∧ U.toUser = user := by
  constructor
  · intro h
    obtain ⟨S, hS, rfl, hlive, U, hU, hid, rfl⟩ := session_of_userForSession h
    obtain ⟨hissued, hended⟩ := (hs.stored S).mp hS
    obtain ⟨-, U', hU'⟩ := hs.verified S hissued
    obtain rfl := Table.eq_of_mem hU'.1 hU (hU'.2.1.trans hid.symm)
    exact ⟨S, hissued, rfl, hended, hlive, U', hU', rfl⟩
  · rintro ⟨S, hissued, rfl, hended, hlive, U, hU, rfl⟩
    have hfind := Table.find?_of_mem ((hs.stored S).mpr ⟨hissued, hended⟩)
    have huser : s.users.find? S.userId = some U := hU.2.1 ▸ Table.find?_of_mem hU.1
    simp only [AuthStore.userForSession, hfind, Option.bind_some, if_pos hlive, huser, Option.map_some]

/-- From a server without sessions, whose users the operator has created: in every run, a request is taken
for a user's, when its session can be looked up, if and only if its cookie is the one that was signed for a
session which was issued to that user for a login with the user's password and has neither ended nor
expired; and all users go back to the operator, by way of those who have created them in such sessions.
A task ends a session only when it has expired, when it is logged out of with the cookie that was signed
for it, or when its user logs in again. -/
theorem sessions_accounted {app : AppState} {p q : AuthPool} {es : List AuthEvent}
    (hidle : p.tasks = []) (hsessions : p.store.sessions.rows = []) (hhistory : p.store.history = {})
    (husers : ∀ U ∈ p.store.users.rows, U.creator = .operator)
    (hnames : (p.store.users.rows.map fun U => U.username).Nodup)
    (hok : (authSystem app).Along Issues es p) (hrun : (authSystem app).run es p = some q) :
    (authSystem app).Along (fun p e => Accepts app p e ∧ Ends app p e) es p ∧
      (∀ S ∈ q.store.history.issued, .start (.login S.login.username S.login.password) ∈ es ∧
        ∃ U, q.store.Verifies app S U) ∧
      ∀ U ∈ q.store.users.rows, q.store.Vouched app U := by
  let logins (login : Credentials) : Prop := .start (.login login.username login.password) ∈ es
  have htries : (authSystem app).Along (fun _ e => Tries logins e) es p := by
    refine .of_forall_mem (fun e he _ username password hstart => ?_) p
    cases e with
    | start r =>
      obtain rfl := Option.some.inj hstart
      exact he
    | _ => cases hstart
  have hstart : System.Sound (authSystem app) (fun s => s.Sound app logins) (guarding app logins)
      (fun _ _ _ => True) p := by
    refine ⟨⟨fun S => ?_, ?_, ?_, fun U hU => .operator hU (husers U hU), ?_, hnames⟩, ?_, ?_⟩
    · rw [hsessions, hhistory]
      exact ⟨fun h => absurd h List.not_mem_nil, fun h => absurd h.1 List.not_mem_nil⟩
    · rw [hhistory]
      exact fun _ h => absurd h List.not_mem_nil
    · rw [hhistory]
      exact fun _ h => absurd h List.not_mem_nil
    · rw [hhistory]
      exact .nil
    · rw [hidle]
      exact fun _ h => absurd h List.not_mem_nil
    · rw [hidle]
      exact .nil
  have hsound := (htries.and hok).invariant
    (fun p e p' hs hok ha => hs.apply (guardingOutline app logins) hok ha) hstart hrun
  refine ⟨?_, fun S hS => hsound.1.verified S hS, hsound.1.vouched⟩
  refine System.Along.of_invariant
    (fun _ _ _ hs hok ha => hs.apply (guardingOutline app logins) hok ha) ?_ hstart (htries.and hok)
  refine fun p e p' hs hok ha => ⟨?_, ?_⟩
  · rintro i o r id next rfl ht
    refine ⟨hs.before (guardingOutline app logins) (List.mem_of_getElem? ht), fun hfault => ?_⟩
    refine ⟨_, ?_, fun user => userForSession_iff hs.1⟩
    simp only [AuthCall.exec, AuthCall.isStatement, hfault, if_true]
    rfl
  · rintro i o r c next rfl ht S hS hgone
    exact takes_exec (hs.before (guardingOutline app logins) (List.mem_of_getElem? ht)) rfl hS hgone

def AuthPool.callAll (p : AuthPool) (e : AuthEvent) (P : AuthCall → AuthOutcome → Bool) : Bool :=
  match e with
  | .step i o => (p.call? (.step i o : AuthEvent)).all fun c => P c o
  | _ => true

lemma AuthPool.callAll_iff {p : AuthPool} {e : AuthEvent} {P : AuthCall → AuthOutcome → Prop}
    [∀ c o, Decidable (P c o)] : p.callAll e (fun c o => decide (P c o)) = true ↔
      ∀ i o c, e = .step i o → p.call? e = some c → P c o := by
  cases e with
  | step i o =>
    simp only [callAll, Option.all_eq_true, decide_eq_true_eq]
    constructor
    · rintro h _ _ c ⟨⟩ hc
      exact h c hc
    · exact fun h c hc => h i o c rfl hc
  | _ => exact ⟨fun _ _ _ _ h => (by cases h), fun _ => rfl⟩

instance (p : AuthPool) (e : AuthEvent) (P : AuthCall → AuthOutcome → Prop) [∀ c o, Decidable (P c o)] :
    Decidable (∀ i o c, e = .step i o → p.call? e = some c → P c o) :=
  decidable_of_iff _ AuthPool.callAll_iff

instance (s : AuthStore) (c : AuthCall) (o : AuthOutcome) : Decidable (s.Fresh c o) :=
  match c with
  | .createSession _ _ _ => inferInstanceAs (Decidable (∀ S ∈ s.history.issued, S.id ≠ o.uuid))
  | .allowLoginAttempt _ | .getUserCredentials _ | .cleanupExpiredSessions | .deleteSessionsForUser _
  | .utcNow | .deleteSession _ | .userForSession _ | .hashPassword _ | .createUser _ _ _ _ | .userCount
  | .createAuditEvent _ _ => .isTrue trivial

instance (p : AuthPool) (e : AuthEvent) : Decidable (Issues p e) :=
  inferInstanceAs (Decidable (∀ i o c, e = .step i o → p.call? e = some c → p.store.Fresh c o))

def sampleSecret : String := "session-secret"

def sampleSessionId : String := "2f1b6c3e-9d1a-4a53-8a0e-1c9f5f0c7b11"

def sampleUserId : String := "0190b6a5-7c1e-7d2a-9f00-3f5f2c1d8e10"

def sampleSignatures : List (String × String) :=
  [(sampleSessionId, "cae03a27fd8faa652a2f37a95484da6d7b9a658fe387100c5b9fc8fc6625f8a1"),
    ("csrf:" ++ sampleUserId, "dd979c775dd801b6b838cf86dfb662ed34711d81071a62d0b011daac907f8827")]

def sampleHashes : List (String × String × String) :=
  [("c2FsdHNhbHRzYWx0c2Fs", "correct horse",
      "$argon2id$v=19$m=19456,t=2,p=1$c2FsdHNhbHRzYWx0c2Fs$UGU190NcnHh9rWzxBsNfBCO61ZwWTIR3Ducy2UD0+78"),
    ("YW5vdGhlcnNhbHQxMjM0", "battery staple",
      "$argon2id$v=19$m=19456,t=2,p=1$YW5vdGhlcnNhbHQxMjM0$L6lEccbVdgw1jwnOltEYmFfwWqHqARcpy1fOqxmJmEk")]

def sampleAuth : AppState where
  auth := ⟨sampleSecret, 7, true, 10⟩
  sign _ text := (sampleSignatures.lookup text).getD ""
  hashPassword salt password :=
    ((sampleHashes.find? fun entry => entry.1 = salt ∧ entry.2.1 = password).map fun entry =>
      .ok entry.2.2).getD (.error "failed to hash password")
  verifyPassword password hash := sampleHashes.any fun entry => entry.2.1 = password ∧ entry.2.2 = hash

def noUsers : AuthPool := ⟨⟨.empty, .empty, [], .empty, {}⟩, []⟩

def userCreated : List AuthEvent :=
  let cookie := signedValue sampleAuth sampleSessionId
  let token := sampleAuth.sign sampleSecret ("csrf:" ++ sampleUserId)
  let form : CreateUserForm := ⟨token, "deploy", "battery staple", "admin"⟩
  [.start (.bootstrapAdmin "admin" "correct horse"), .step 0 {}, .step 0 { salt := "c2FsdHNhbHRzYWx0c2Fs" },
    .step 0 { uuid := sampleUserId }, .step 0 {}, .finish 0,
    .start (.login "admin" "correct horse"), .step 0 {}, .step 0 {}, .step 0 {}, .step 0 {}, .step 0 {},
    .step 0 { uuid := sampleSessionId }, .finish 0,
    .start (.createUser (some cookie) form), .step 0 {}, .step 0 {},
    .step 0 { salt := "YW5vdGhlcnNhbHQxMjM0" },
    .step 0 { uuid := "0190b6a5-7c1e-7d2a-9f00-3f5f2c1d8e11" }, .step 0 {}, .finish 0,
    .start (.logout (some (sessionCookieName ++ "=" ++ cookie))), .step 0 {}, .finish 0]

theorem sessions_accounted_user :
    ∃ q, (authSystem sampleAuth).run userCreated noUsers = some q ∧
      q.store.users.rows.map (fun U => (U.username, U.creator)) =
        [("admin", .operator), ("deploy", .session sampleSessionId)] ∧
      q.store.history.ended = [sampleSessionId] ∧ ∀ U ∈ q.store.users.rows, q.store.Vouched sampleAuth U := by
  have hok : (authSystem sampleAuth).Along Issues userCreated noUsers := by decide +kernel
  have hrun : ((authSystem sampleAuth).run userCreated noUsers).any (fun q =>
      q.store.users.rows.map (fun U => (U.username, U.creator)) =
        [("admin", .operator), ("deploy", .session sampleSessionId)] ∧
      q.store.history.ended = [sampleSessionId]) = true := by decide +kernel
  obtain ⟨q, hq, hend⟩ := (Option.any_eq_true _ _).mp hrun
  obtain ⟨husers, hended⟩ := of_decide_eq_true hend
  refine ⟨q, hq, husers, hended, ?_⟩
  exact (sessions_accounted (p := noUsers) rfl rfl rfl (fun _ h => absurd h List.not_mem_nil) .nil hok hq).2.2

end Janus.Web.Auth
