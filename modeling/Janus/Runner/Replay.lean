import Janus.Runner.Auth

/-! Replayed requests: how often a signed request is accepted, and what a rejection for a replay
rests on. -/

namespace Janus.Runner

open Janus.Concurrency Janus.Data Janus.Server

structure SignedRequest where
  keyId : String
  timestamp : String
  nonce : String
  body : Bytes
  signature : String
  deriving DecidableEq

def Request.signed (request : Request) : Option SignedRequest :=
  match signatureHeaders request.headers with
  | .ok h => some ⟨h.keyId, h.timestamp, h.nonce, request.body, h.signature⟩
  | .error _ => none

abbrev AuthPool := Pool Request AuthCall AuthCall.Answer AuthRejection AuthStore

abbrev AuthEvent := Event Request Unit ℕ

/-- The rest of a verification that has passed `verify_timestamp`. -/
def inNonceCheck : AuthProgram Unit → Bool
  | .call .nonceNow _ | .call (.recordNonce _ _ _) _ => true
  | _ => false

structure NonceEntry where
  request : Request
  replayKey : String
  now : ℤ

def nonceEntry (p : AuthPool) (e : AuthEvent) : Option NonceEntry :=
  match p.call? e with
  | some (.recordNonce request key now) => some ⟨request, key, now⟩
  | _ => none

variable (L : Libraries) (keys : BTreeMap PublicKeyRecord)

def authentic (request : Request) : Bool :=
  match signatureHeaders request.headers with
  | .ok h =>
    match keys.get h.keyId with
    | some record => (authenticate L record request h).isOk
    | none => false
  | .error _ => false

def accepted? (p : AuthPool) (e : AuthEvent) : Option SignedRequest :=
  match (authSystem L keys).result? p e with
  | some (request, .ok _) => request.signed
  | _ => none

def rejectedAsReplay? (p : AuthPool) (e : AuthEvent) : Option Request :=
  match (authSystem L keys).result? p e with
  | some (request, .error .replay) => some request
  | _ => none

section

variable (record : PublicKeyRecord) (request : Request) (h : SignatureHeaders)

def onRecorded : Except AuthRejection Unit → AuthProgram Unit
  | .ok _ => .done ((authenticate L record request h).map fun _ => ())
  | .error e => .done (.error e)

def onNonceNow : Except AuthRejection ℤ → AuthProgram Unit
  | .ok now => .call (.recordNonce request (replayKey h.keyId h.nonce) now)
      (onRecorded L record request h)
  | .error e => .done (.error e)

def onTimestampNow (timestamp : ℤ) : Except AuthRejection ℤ → AuthProgram Unit
  | .ok now =>
    if withinTolerance now timestamp then
      if isBlank h.nonce ∨ h.nonce.utf8ByteSize > 128 then .fail .invalidNonce
      else .call .nonceNow (onNonceNow L record request h)
    else .fail .invalidTimestamp
  | .error e => .done (.error e)

end

inductive Stage (request : Request) : AuthProgram Unit → Prop
  | timestamp {record h t} (headers : signatureHeaders request.headers = .ok h)
      (key : keys.get h.keyId = some record) (parsed : L.parseFromRfc3339 h.timestamp = some t) :
      Stage request (.call .timestampNow (onTimestampNow L record request h t))
  | nonce {record h} (headers : signatureHeaders request.headers = .ok h)
      (key : keys.get h.keyId = some record) :
      Stage request (.call .nonceNow (onNonceNow L record request h))
  | record {record h now} (headers : signatureHeaders request.headers = .ok h)
      (key : keys.get h.keyId = some record) :
      Stage request (.call (.recordNonce request (replayKey h.keyId h.nonce) now)
        (onRecorded L record request h))
  | done (x : Except AuthRejection Unit) : Stage request (.done x)

variable {L keys} {request : Request} {p p' : AuthPool} {e : AuthEvent}

lemma verifyNonce_eq (record : PublicKeyRecord) (h : SignatureHeaders) :
    ((verifyNonce request h.keyId h.nonce >>= fun _ => .done (authenticate L record request h)) >>=
      fun _ => pure ()) =
    if isBlank h.nonce ∨ h.nonce.utf8ByteSize > 128 then .fail .invalidNonce
    else .call .nonceNow (onNonceNow L record request h) := by
  rw [verifyNonce]
  split
  · rfl
  · refine congrArg (Program.call AuthCall.nonceNow) (funext fun x => ?_)
    cases x with
    | error x => rfl
    | ok now =>
      refine congrArg (Program.call (AuthCall.recordNonce request _ now)) (funext fun x => ?_)
      cases x with
      | error x => rfl
      | ok a =>
        change (Program.done (authenticate L record request h) >>= fun _ => pure ()) = _
        cases hx : authenticate L record request h <;> simp only [onRecorded, hx] <;> rfl

lemma program_eq {record : PublicKeyRecord} {h : SignatureHeaders} {t : ℤ}
    (hh : signatureHeaders request.headers = .ok h) (hk : keys.get h.keyId = some record)
    (ht : L.parseFromRfc3339 h.timestamp = some t) : (authSystem L keys).program request =
      .call .timestampNow (onTimestampNow L record request h t) := by
  simp only [authSystem, verifyRequest, hh, Program.done_bind, hk, verifyTimestamp, ht]
  refine congrArg (Program.call AuthCall.timestampNow) (funext fun x => ?_)
  cases x with
  | error x => rfl
  | ok now =>
    change (((if withinTolerance now t = true then pure () else .fail .invalidTimestamp) >>=
      fun _ => verifyNonce request h.keyId h.nonce >>= fun _ =>
        .done (authenticate L record request h)) >>= fun _ => pure ()) = _
    simp only [onTimestampNow]
    split
    · exact verifyNonce_eq record h
    · rfl

variable (L keys) in
lemma program_cases (request : Request) :
    (∃ x, (authSystem L keys).program request = .done (.error x)) ∨
    ∃ record h t, signatureHeaders request.headers = .ok h ∧ keys.get h.keyId = some record ∧
      L.parseFromRfc3339 h.timestamp = some t ∧
      (authSystem L keys).program request =
        .call .timestampNow (onTimestampNow L record request h t) := by
  rcases hh : signatureHeaders request.headers with x | h
  · exact .inl ⟨x, by simp only [authSystem, verifyRequest, hh]; rfl⟩
  · cases hk : keys.get h.keyId with
    | none => exact .inl ⟨.invalidKeyId, by simp [authSystem, verifyRequest, hh, hk, Program.fail]⟩
    | some record =>
      cases ht : L.parseFromRfc3339 h.timestamp with
      | none =>
        refine .inl ⟨.invalidTimestamp, ?_⟩
        simp [authSystem, verifyRequest, hh, hk, ht, verifyTimestamp, Program.fail]
      | some t => exact .inr ⟨record, h, t, rfl, hk, ht, program_eq hh hk ht⟩

variable (L keys) in
structure Quiet (p p' : AuthPool) (e : AuthEvent) : Prop where
  seenNonces : p'.store.seenNonces = p.store.seenNonces
  recorded : p'.store.recorded = p.store.recorded
  clock : p.store.clock ≤ p'.store.clock
  result : ∀ request x, (authSystem L keys).result? p e = some (request, x) →
    ∃ m, x = .error m ∧ m ≠ .replay
  tasks : ∀ t ∈ p'.tasks, inNonceCheck t.2 = true →
    (∃ t' ∈ p.tasks, t'.1 = t.1 ∧ inNonceCheck t'.2 = true) ∨
    ∃ h ts, signatureHeaders t.1.headers = .ok h ∧ L.parseFromRfc3339 h.timestamp = some ts ∧
      withinTolerance p.store.clock ts = true

inductive AuthStep (L : Libraries) (keys : BTreeMap PublicKeyRecord) (p : AuthPool) :
    AuthEvent → AuthPool → Prop
  | quiet {e : AuthEvent} {p' : AuthPool} (h : Quiet L keys p p' e) : AuthStep L keys p e p'
  | replay {i : ℕ} {request : Request} {h : SignatureHeaders} {now : ℤ}
      (entry : nonceEntry p (.step i ()) = some ⟨request, replayKey h.keyId h.nonce, now⟩)
      (result : (authSystem L keys).result? p (.step i ()) = some (request, .error .replay))
      (task : ∃ q, (request, q) ∈ p.tasks ∧ inNonceCheck q = true)
      (headers : signatureHeaders request.headers = .ok h)
      (seen : (retainedNonces p.store.seenNonces now).containsKey (replayKey h.keyId h.nonce) = true) :
      AuthStep L keys p (.step i ())
        { store := { p.store with seenNonces := retainedNonces p.store.seenNonces now }
          tasks := p.tasks.set i (request, .done (.error .replay)) }
  | recorded {i : ℕ} {request : Request} {record : PublicKeyRecord} {h : SignatureHeaders}
      {now : ℤ}
      (entry : nonceEntry p (.step i ()) = some ⟨request, replayKey h.keyId h.nonce, now⟩)
      (result : (authSystem L keys).result? p (.step i ()) =
        some (request, (authenticate L record request h).map fun _ => ()))
      (task : ∃ q, (request, q) ∈ p.tasks ∧ inNonceCheck q = true)
      (headers : signatureHeaders request.headers = .ok h) (key : keys.get h.keyId = some record)
      (fresh : (retainedNonces p.store.seenNonces now).containsKey (replayKey h.keyId h.nonce) = false) :
      AuthStep L keys p (.step i ())
        { store := { p.store with
            seenNonces := (retainedNonces p.store.seenNonces now).insert
              (replayKey h.keyId h.nonce) now
            recorded := request :: p.store.recorded }
          tasks := p.tasks.set i (request, .done ((authenticate L record request h).map fun _ => ())) }

variable (L keys) in
def Staged (p : AuthPool) : Prop := ∀ t ∈ p.tasks, Stage L keys t.1 t.2

lemma Stage.program (request : Request) :
    Stage L keys request ((authSystem L keys).program request) := by
  rcases program_cases L keys request with ⟨x, hx⟩ | ⟨record, h, t, hh, hk, ht, hx⟩
  · rw [hx]
    exact .done _
  · rw [hx]
    exact .timestamp hh hk ht

lemma Stage.onTimestampNow {record : PublicKeyRecord} {h : SignatureHeaders} (t now : ℤ)
    (hh : signatureHeaders request.headers = .ok h) (hk : keys.get h.keyId = some record) :
    Stage L keys request (onTimestampNow L record request h t (.ok now)) ∧
    (inNonceCheck (Runner.onTimestampNow L record request h t (.ok now)) = true →
      withinTolerance now t = true) ∧
    ∀ x, (Runner.onTimestampNow L record request h t (.ok now)).result? = some x →
      ∃ m, x = .error m ∧ m ≠ .replay := by
  simp only [Runner.onTimestampNow]
  split
  · next hw =>
    split
    · refine ⟨.done _, fun _ => hw, fun x hx => ?_⟩
      exact ⟨.invalidNonce, (Option.some.inj hx).symm, by decide⟩
    · exact ⟨.nonce hh hk, fun _ => hw, fun x hx => nomatch hx⟩
  · refine ⟨.done _, fun h => (nomatch h), fun x hx => ?_⟩
    exact ⟨.invalidTimestamp, (Option.some.inj hx).symm, by decide⟩

lemma Stage.onRecorded {record : PublicKeyRecord} {h : SignatureHeaders}
    (x : Except AuthRejection Unit) : Stage L keys request (onRecorded L record request h x) := by
  cases x <;> exact .done _

lemma Staged.set (hp : Staged L keys p) {i : ℕ} {q : AuthProgram Unit}
    (hq : Stage L keys request q) {store : AuthStore} :
    Staged L keys { store := store, tasks := p.tasks.set i (request, q) } := by
  intro t ht
  rcases List.mem_or_eq_of_mem_set ht with ht | rfl
  · exact hp t ht
  · exact hq

theorem Staged.step (hp : Staged L keys p) (hc : e ≠ .crash)
    (ha : (authSystem L keys).apply p e = some p') :
    Staged L keys p' ∧ AuthStep L keys p e p' := by
  obtain ⟨r, rfl, -, rfl⟩ | ⟨i, o, r, c, next, rfl, ht, -, rfl⟩ | ⟨i, r, x, rfl, ht, rfl⟩ |
    ⟨rfl, rfl⟩ | ⟨v, rfl, rfl⟩ := System.apply_cases ha
  · refine ⟨fun t ht => ?_, .quiet ⟨rfl, rfl, le_rfl, fun _ _ h => (by cases h), fun t ht hn => ?_⟩⟩
    · rcases List.mem_append.mp ht with ht | ht
      · exact hp t ht
      · obtain rfl := List.mem_singleton.mp ht
        exact .program r
    · rcases List.mem_append.mp ht with ht | ht
      · exact .inl ⟨t, ht, rfl, hn⟩
      · obtain rfl := List.mem_singleton.mp ht
        rcases program_cases L keys r with ⟨x, hx⟩ | ⟨record, h, t, -, -, -, hx⟩
        · simp [hx, inNonceCheck] at hn
        · simp [hx, inNonceCheck] at hn
  · have hres := System.result?_step (authSystem L keys) (o := o) ht
    have hmem := List.mem_of_getElem? ht
    have hstage : Stage L keys r (.call c next) := hp _ hmem
    cases hstage with
    | @timestamp _ _ t hh hk hparse =>
      have hnext := Stage.onTimestampNow (L := L) t p.store.clock hh hk
      refine ⟨hp.set hnext.1, .quiet ⟨rfl, rfl, le_rfl, fun request x hx => ?_, fun t ht' hn => ?_⟩⟩
      · rw [hres] at hx
        obtain ⟨y, hy, hxy⟩ := Option.map_eq_some_iff.mp hx
        cases hxy
        exact hnext.2.2 _ hy
      · rcases List.mem_or_eq_of_mem_set ht' with ht' | rfl
        · exact .inl ⟨t, ht', rfl, hn⟩
        · exact .inr ⟨_, _, hh, hparse, hnext.2.1 hn⟩
    | nonce hh hk =>
      refine ⟨hp.set (.record hh hk), .quiet ⟨rfl, rfl, le_rfl, fun request x hx => ?_,
        fun t ht' hn => ?_⟩⟩
      · rw [hres] at hx
        cases hx
      · rcases List.mem_or_eq_of_mem_set ht' with ht' | rfl
        · exact .inl ⟨t, ht', rfl, hn⟩
        · exact .inl ⟨_, hmem, rfl, rfl⟩
    | @record record h now hh hk =>
      refine ⟨hp.set (.onRecorded _), ?_⟩
      have hentry : nonceEntry p (.step i o) = some ⟨r, replayKey h.keyId h.nonce, now⟩ := by
        simp only [nonceEntry, Pool.call?, ht]
      cases hs : (retainedNonces p.store.seenNonces now).containsKey (replayKey h.keyId h.nonce) with
      | true =>
        have hx : (authSystem L keys).exec (.recordNonce r (replayKey h.keyId h.nonce) now) o p.store =
            (.error .replay,
              { p.store with seenNonces := retainedNonces p.store.seenNonces now }) := if_pos hs
        rw [hx] at hres ⊢
        exact .replay hentry hres ⟨_, hmem, rfl⟩ hh hs
      | false =>
        have hx : (authSystem L keys).exec (.recordNonce r (replayKey h.keyId h.nonce) now) o p.store =
            (.ok (), { p.store with
              seenNonces := (retainedNonces p.store.seenNonces now).insert
                (replayKey h.keyId h.nonce) now
              recorded := r :: p.store.recorded }) := if_neg (by simp [hs])
        rw [hx] at hres ⊢
        exact .recorded hentry hres ⟨_, hmem, rfl⟩ hh hk hs
  · refine ⟨fun t ht' => hp t (List.mem_of_mem_eraseIdx ht'),
      .quiet ⟨rfl, rfl, le_rfl, fun _ _ h => (by cases h), fun t ht' hn => ?_⟩⟩
    exact .inl ⟨t, List.mem_of_mem_eraseIdx ht', rfl, hn⟩
  · exact (hc rfl).elim
  · refine ⟨hp, .quiet ⟨rfl, rfl, ?_, fun _ _ h => (by cases h), fun t ht hn => .inl ⟨t, ht, rfl, hn⟩⟩⟩
    exact Int.le_add_of_nonneg_right (Int.natCast_nonneg v)

def Request.keyAndNonce (request : Request) : Option (String × String) :=
  match signatureHeaders request.headers with
  | .ok h => some (h.keyId, h.nonce)
  | .error _ => none

def Request.hasReplayKey (key : String) (request : Request) : Bool :=
  request.keyAndNonce.any fun k => replayKey k.1 k.2 == key

lemma Request.keyAndNonce_eq {h : SignatureHeaders} (hh : signatureHeaders request.headers = .ok h) :
    request.keyAndNonce = some (h.keyId, h.nonce) := by
  simp only [keyAndNonce, hh]

lemma authentic_eq {record : PublicKeyRecord} {h : SignatureHeaders}
    (hh : signatureHeaders request.headers = .ok h) (hk : keys.get h.keyId = some record) :
    authentic L keys request = (authenticate L record request h).isOk := by
  simp only [authentic, hh, hk]

variable (L keys) in
/-- What `verify_nonce` adds to its table is authentic, and what it takes for a replay has the key
id and the nonce of the request that the entry comes from. -/
def NoncesJustified (p : AuthPool) (e : AuthEvent) : Prop :=
  e ≠ .crash ∧ ∀ entry ∈ nonceEntry p e,
    if (retainedNonces p.store.seenNonces entry.now).containsKey entry.replayKey then
      ∀ earlier ∈ p.store.recorded.find? (Request.hasReplayKey entry.replayKey),
        earlier.keyAndNonce = entry.request.keyAndNonce
    else authentic L keys entry.request = true

variable (L keys) in
structure NoncesAuthentic (p : AuthPool) : Prop where
  staged : Staged L keys p
  recorded : ∀ request ∈ p.store.recorded, authentic L keys request = true
  seen : ∀ key t, p.store.seenNonces.get key = some t →
    ∃ request, p.store.recorded.find? (Request.hasReplayKey key) = some request

lemma get_of_retainedNonces {seen : BTreeMap ℤ} {now t : ℤ} {key : String}
    (h : (retainedNonces seen now).get key = some t) : seen.get key = some t :=
  (OrderedMap.get_retain.mp h).1

lemma NoncesAuthentic.step (hp : NoncesAuthentic L keys p) (hok : NoncesJustified L keys p e)
    (ha : (authSystem L keys).apply p e = some p') : NoncesAuthentic L keys p' := by
  obtain ⟨hstaged, hstep⟩ := hp.staged.step hok.1 ha
  cases hstep with
  | quiet h =>
    refine ⟨hstaged, ?_, ?_⟩
    · rw [h.recorded]
      exact hp.recorded
    · rw [h.recorded, h.seenNonces]
      exact hp.seen
  | replay _ _ _ _ _ =>
    exact ⟨hstaged, hp.recorded, fun key t ht => hp.seen key t (get_of_retainedNonces ht)⟩
  | @recorded i request record h now hentry _ _ hh hk hfresh =>
    have hauth := hok.2 _ hentry
    rw [if_neg (by simp [hfresh])] at hauth
    refine ⟨hstaged, ?_, fun key t ht => ?_⟩
    · exact List.forall_mem_cons.mpr ⟨hauth, hp.recorded⟩
    · simp only [List.find?_cons]
      split
      · exact ⟨request, rfl⟩
      · next hne =>
        have hkey : key ≠ replayKey h.keyId h.nonce := by
          rintro rfl
          simp [Request.hasReplayKey, Request.keyAndNonce_eq hh] at hne
        rw [OrderedMap.get_insert_of_ne hkey] at ht
        exact hp.seen key t (get_of_retainedNonces ht)

lemma NoncesAuthentic.replay (hp : NoncesAuthentic L keys p) (hok : NoncesJustified L keys p e)
    (ha : (authSystem L keys).apply p e = some p')
    (hr : request ∈ rejectedAsReplay? L keys p e) :
    ∃ earlier ∈ p.store.recorded, authentic L keys earlier = true ∧
      earlier.keyAndNonce = request.keyAndNonce := by
  obtain ⟨hstaged, hstep⟩ := hp.staged.step hok.1 ha
  simp only [rejectedAsReplay?] at hr
  split at hr
  case h_2 => cases hr
  next request' hres =>
  cases hr
  cases hstep with
  | quiet h =>
    obtain ⟨m, hm, hne⟩ := h.result _ _ hres
    exact (hne (Except.error.inj hm).symm).elim
  | @replay i _ h now hentry hres' _ hh hseen =>
    have hsame := hok.2 _ hentry
    rw [if_pos hseen] at hsame
    obtain ⟨t, ht⟩ := OrderedMap.containsKey_iff.mp hseen
    obtain ⟨earlier, he⟩ := hp.seen _ t (get_of_retainedNonces ht)
    cases hres'.symm.trans hres
    have hmem := List.mem_of_find?_eq_some he
    exact ⟨earlier, hmem, hp.recorded earlier hmem, hsame earlier he⟩
  | @recorded i request record h now hentry hres' _ hh hk hfresh =>
    have hauth := hok.2 _ hentry
    rw [if_neg (by simp [hfresh]), authentic_eq hh hk] at hauth
    rw [hres'] at hres
    cases hx : authenticate L record request h with
    | error m => simp [hx, Except.isOk, Except.toBool] at hauth
    | ok context => simp [hx, Except.map] at hres

lemma NoncesAuthentic.unchanged (hp : NoncesAuthentic L keys p) (hok : NoncesJustified L keys p e)
    (ha : (authSystem L keys).apply p e = some p')
    (hn : accepted? L keys p e = none) {key : String} {t : ℤ}
    (ht : p'.store.seenNonces.get key = some t) : p.store.seenNonces.get key = some t := by
  obtain ⟨hstaged, hstep⟩ := hp.staged.step hok.1 ha
  cases hstep with
  | quiet h => exact h.seenNonces ▸ ht
  | replay _ _ _ _ _ => exact get_of_retainedNonces ht
  | @recorded i request record h now hentry hres _ hh hk hfresh =>
    have hauth := hok.2 _ hentry
    rw [if_neg (by simp [hfresh]), authentic_eq hh hk] at hauth
    cases hx' : authenticate L record request h with
    | error m => simp [hx', Except.isOk, Except.toBool] at hauth
    | ok context => simp [accepted?, hres, hx', Except.map, Request.signed, hh] at hn

lemma NoncesAuthentic.new (clock : ℤ) :
    NoncesAuthentic L keys { store := .new clock, tasks := [] } :=
  ⟨fun _ ht => (nomatch ht), fun _ hr => (nomatch hr), fun _ _ ht => (nomatch ht)⟩

/-- A request is rejected as a replay only where an authentic request with the same key id and nonce
has been verified before, and verifications that fail add nothing to what later ones see. -/
theorem replay_rejections_justified (clock : ℤ) {es : List AuthEvent}
    (h : (authSystem L keys).Along (NoncesJustified L keys) es
      { store := .new clock, tasks := [] }) :
    (authSystem L keys).Along (fun p e =>
      (∀ request ∈ rejectedAsReplay? L keys p e,
        ∃ earlier ∈ p.store.recorded, authentic L keys earlier = true ∧
          earlier.keyAndNonce = request.keyAndNonce) ∧
      ∀ p', (authSystem L keys).apply p e = some p' →
        accepted? L keys p e = none → ∀ key t,
          p'.store.seenNonces.get key = some t → p.store.seenNonces.get key = some t) es
      { store := .new clock, tasks := [] } := by
  refine System.Along.of_invariant (I := NoncesAuthentic L keys)
    (fun p e p' hp hok ha => hp.step hok ha) (fun p e p' hp hok ha => ⟨?_, ?_⟩)
    (NoncesAuthentic.new clock) h
  · exact fun request hr => hp.replay hok ha hr
  · exact fun q hq hn key t ht => hp.unchanged hok hq hn ht

variable (L keys) in
/-- Where `verify_nonce` forgets the nonce of an accepted request, the timestamp of the request is
out of tolerance for good, and no copy of the request has already passed `verify_timestamp`. -/
def NoncesRemembered (p : AuthPool) (e : AuthEvent) : Prop :=
  e ≠ .crash ∧ ∀ entry ∈ nonceEntry p e,
    ∀ accepted ∈ p.store.recorded, authentic L keys accepted = true →
      ∀ signed ∈ accepted.signed,
        (∃ t ∈ p.store.seenNonces.get (replayKey signed.keyId signed.nonce),
          t < entry.now - seconds nonceRetentionSeconds) →
        (∀ ts ∈ L.parseFromRfc3339 signed.timestamp,
          ts + seconds (signatureToleranceSeconds + 1) ≤ p.store.clock) ∧
        ∀ t ∈ p.tasks, inNonceCheck t.2 = true → t.1.signed ≠ some signed

variable (L) in
/-- A request that can no longer pass `verify_timestamp`, nor has passed it. -/
structure Expired (signed : SignedRequest) (p : AuthPool) : Prop where
  clock : ∀ ts, L.parseFromRfc3339 signed.timestamp = some ts →
    ts + seconds (signatureToleranceSeconds + 1) ≤ p.store.clock
  tasks : ∀ t ∈ p.tasks, inNonceCheck t.2 = true → t.1.signed ≠ some signed

variable (L keys) in
structure Accepted (signed : SignedRequest) (p : AuthPool) : Prop where
  recorded : ∃ request ∈ p.store.recorded, authentic L keys request = true ∧
    request.signed = some signed
  closed : (∃ t, p.store.seenNonces.get (replayKey signed.keyId signed.nonce) = some t) ∨
    Expired L signed p

variable {signed : SignedRequest}

lemma withinTolerance_iff {now ts : ℤ} : withinTolerance now ts = true ↔
    -seconds (signatureToleranceSeconds + 1) < now - ts ∧
      now - ts < seconds (signatureToleranceSeconds + 1) := by
  have h : ((now - ts).tdiv (seconds 1)).natAbs = (now - ts).natAbs / 1000000000 :=
    Int.natAbs_tdiv ..
  rw [withinTolerance, decide_eq_true_eq, h]
  simp only [seconds, signatureToleranceSeconds]
  omega

lemma signed_eq {h : SignatureHeaders} (hh : signatureHeaders request.headers = .ok h)
    (hs : request.signed = some signed) :
    signed.keyId = h.keyId ∧ signed.timestamp = h.timestamp ∧ signed.nonce = h.nonce := by
  simp only [Request.signed, hh, Option.some.injEq] at hs
  subst hs
  exact ⟨rfl, rfl, rfl⟩

lemma Expired.quiet (hx : Expired L signed p) (h : Quiet L keys p p' e) : Expired L signed p' := by
  refine ⟨fun ts hts => (hx.clock ts hts).trans h.clock, fun t ht hn hs => ?_⟩
  rcases h.tasks t ht hn with ⟨t', ht', hr, hn'⟩ | ⟨h', ts, hh, hts, hw⟩
  · exact hx.tasks t' ht' hn' (hr ▸ hs)
  · obtain ⟨-, htime, -⟩ := signed_eq hh hs
    have hlate := hx.clock ts (htime ▸ hts)
    have := (withinTolerance_iff.mp hw).2
    omega

lemma remembered_or_expired {now : ℤ}
    (hget : ∃ t, p.store.seenNonces.get (replayKey signed.keyId signed.nonce) = some t)
    (hforget : (∃ t ∈ p.store.seenNonces.get (replayKey signed.keyId signed.nonce),
        t < now - seconds nonceRetentionSeconds) →
      (∀ ts ∈ L.parseFromRfc3339 signed.timestamp,
        ts + seconds (signatureToleranceSeconds + 1) ≤ p.store.clock) ∧
      ∀ t ∈ p.tasks, inNonceCheck t.2 = true → t.1.signed ≠ some signed) :
    (∃ t, (retainedNonces p.store.seenNonces now).get (replayKey signed.keyId signed.nonce) =
      some t) ∨ Expired L signed p := by
  obtain ⟨t, ht⟩ := hget
  by_cases hold : t < now - seconds nonceRetentionSeconds
  · obtain ⟨hclock, htasks⟩ := hforget ⟨t, ht, hold⟩
    exact .inr ⟨hclock, htasks⟩
  · exact .inl ⟨t, OrderedMap.get_retain.mpr ⟨ht, by simpa using hold⟩⟩

lemma Expired.settle (hx : Expired L signed p) {i : ℕ} {x : Except AuthRejection Unit}
    {store : AuthStore} (hclock : store.clock = p.store.clock) :
    Expired L signed { store := store, tasks := p.tasks.set i (request, .done x) } := by
  refine ⟨fun ts hts => hclock ▸ hx.clock ts hts, fun t ht hn => ?_⟩
  rcases List.mem_or_eq_of_mem_set ht with ht | rfl
  · exact hx.tasks t ht hn
  · cases hn

lemma Accepted.step (hp : Staged L keys p) (hs : Accepted L keys signed p)
    (hok : NoncesRemembered L keys p e) (ha : (authSystem L keys).apply p e = some p') :
    Accepted L keys signed p' ∧ accepted? L keys p e ≠ some signed := by
  obtain ⟨⟨accepted, hmem, hauth, hsigned⟩, hclosed⟩ := hs
  obtain ⟨-, hstep⟩ := hp.step hok.1 ha
  cases hstep with
  | quiet h =>
    refine ⟨⟨⟨accepted, h.recorded ▸ hmem, hauth, hsigned⟩, ?_⟩, ?_⟩
    · exact hclosed.imp (fun ⟨t, ht⟩ => ⟨t, h.seenNonces ▸ ht⟩) fun hx => hx.quiet h
    · simp only [accepted?]
      split
      · next hres =>
        obtain ⟨m, hm, -⟩ := h.result _ _ hres
        cases hm
      · exact nofun
  | @replay i request h now hentry hres _ hh hseen =>
    have hforget := hok.2 _ hentry accepted hmem hauth signed hsigned
    refine ⟨⟨⟨accepted, hmem, hauth, hsigned⟩, ?_⟩, ?_⟩
    · rcases hclosed with hget | hx
      · exact (remembered_or_expired hget hforget).imp id fun hx => hx.settle rfl
      · exact .inr (hx.settle rfl)
    · simp [accepted?, hres]
  | @recorded i request record h now hentry hres htask hh hk hfresh =>
    have hforget := hok.2 _ hentry accepted hmem hauth signed hsigned
    have hclosed : (∃ t, (retainedNonces p.store.seenNonces now).get
        (replayKey signed.keyId signed.nonce) = some t) ∨ Expired L signed p := by
      rcases hclosed with hget | hx
      · exact remembered_or_expired hget hforget
      · exact .inr hx
    refine ⟨⟨⟨accepted, List.mem_cons_of_mem _ hmem, hauth, hsigned⟩, ?_⟩, ?_⟩
    · rcases hclosed with ⟨t, ht⟩ | hx
      · refine .inl ?_
        by_cases hkey : replayKey signed.keyId signed.nonce = replayKey h.keyId h.nonce
        · exact ⟨now, hkey ▸ OrderedMap.get_insert_self⟩
        · exact ⟨t, (OrderedMap.get_insert_of_ne hkey).trans ht⟩
      · exact .inr (hx.settle rfl)
    · intro hacc
      have hsame : request.signed = some signed := by
        simp only [accepted?, hres] at hacc
        split at hacc
        · next hr => exact (Prod.mk.inj (Option.some.inj hr)).1 ▸ hacc
        · cases hacc
      obtain ⟨hkey, -, hnonce⟩ := signed_eq hh hsame
      rcases hclosed with ⟨t, ht⟩ | hx
      · rw [hkey, hnonce] at ht
        simp [OrderedMap.containsKey_iff.mpr ⟨t, ht⟩] at hfresh
      · obtain ⟨q, hq, hn⟩ := htask
        exact hx.tasks _ hq hn hsame

lemma Accepted.of_accepts (hp : Staged L keys p) (hc : e ≠ .crash)
    (ha : (authSystem L keys).apply p e = some p') (hacc : accepted? L keys p e = some signed) :
    Accepted L keys signed p' := by
  obtain ⟨-, hstep⟩ := hp.step hc ha
  simp only [accepted?] at hacc
  split at hacc
  case h_2 => cases hacc
  next request' x hres' =>
  have hsigned : request'.signed = some signed := hacc
  cases hstep with
  | quiet h =>
    obtain ⟨m, hm, -⟩ := h.result _ _ hres'
    cases hm
  | replay _ hres _ _ _ => cases hres.symm.trans hres'
  | @recorded i request record h now hentry hres htask hh hk hfresh =>
    obtain ⟨hr, hx⟩ := Prod.mk.inj (Option.some.inj (hres.symm.trans hres'))
    subst hr
    obtain ⟨hkey, -, hnonce⟩ := signed_eq hh hsigned
    refine ⟨⟨request, List.mem_cons_self, ?_, hsigned⟩, .inl ⟨now, ?_⟩⟩
    · rw [authentic_eq hh hk]
      cases hy : authenticate L record request h with
      | error m => simp [hy, Except.map] at hx
      | ok context => rfl
    · rw [hkey, hnonce]
      exact OrderedMap.get_insert_self

theorem accepted_at_most_once (clock : ℤ) (signed : SignedRequest) {es : List AuthEvent}
    (h : (authSystem L keys).Along (NoncesRemembered L keys) es
      { store := .new clock, tasks := [] }) :
    (authSystem L keys).AtMostOnce (fun p e => accepted? L keys p e = some signed) es
      { store := .new clock, tasks := [] } := by
  refine System.AtMostOnce.of_invariant (J := Staged L keys) (I := Accepted L keys signed)
    (fun p e p' hp hok ha => (hp.step hok.1 ha).1)
    (fun p e p' hp hok ha hacc => .of_accepts hp hok.1 ha hacc)
    (fun p e p' hp hacc hok ha => (hacc.step hp hok ha).1)
    (fun p e p' hp hacc hok ha => (hacc.step hp hok ha).2) ?_ h
  exact fun t ht => nomatch ht

instance (p : AuthPool) (e : AuthEvent) : Decidable (NoncesJustified L keys p e) :=
  inferInstanceAs (Decidable (_ ∧ _))

instance (p : AuthPool) (e : AuthEvent) : Decidable (NoncesRemembered L keys p e) :=
  inferInstanceAs (Decidable (_ ∧ _))

def samplePublicKey : Bytes :=
  [234, 74, 108, 99, 226, 156, 82, 10, 190, 245, 80, 123, 19, 46, 197, 249, 149, 71, 118, 174, 190,
    190, 123, 146, 66, 30, 234, 105, 20, 70, 210, 44]

def sampleSignature : Bytes :=
  [154, 193, 207, 50, 144, 101, 31, 102, 201, 43, 31, 173, 177, 235, 20, 125, 75, 197, 127, 61, 226,
    223, 70, 97, 246, 167, 250, 255, 217, 143, 174, 156, 234, 187, 197, 200, 42, 252, 196, 106, 223,
    39, 138, 137, 18, 237, 48, 162, 129, 209, 58, 205, 224, 235, 25, 12, 30, 216, 85, 95, 67, 118,
    221, 6]

def sampleLibraries : Libraries where
  parseFromRfc3339 text :=
    if text = "2026-01-01T00:05:00Z" then some (seconds 1767225900) else none
  decodeBase64 text :=
    if text = "6kpsY+KcUgq+9VB7Ey7F+ZVHdq6+vnuSQh7qaRRG0iw=" then some samplePublicKey
    else if text = "msHPMpBlH2bJKx+tsesUfUvFfz3i30Zh9qf6/9mPrpzqu8XIKvzEat8niokS7TCigdE6zeDrGQwe2FVfQ3bdBg=="
    then some sampleSignature
    else none
  sha256Hex body :=
    if body = [] then "e3b0c44298fc1c149afbf4c8996fb92427ae41e4649b934ca495991b7852b855"
    else "6e340b9cffb37a989ca544e6bb780a2c78901d3fb33738768511a30617afa01d"
  isVerifyingKey key := key = samplePublicKey
  verify key message signature :=
    key = samplePublicKey ∧ signature = sampleSignature ∧
      message = canonicalSignedRequest "GET" "/jobs"
        "e3b0c44298fc1c149afbf4c8996fb92427ae41e4649b934ca495991b7852b855" "2026-01-01T00:05:00Z"
        "nonce-1"

def sampleConfig : AuthConfig :=
  ⟨"signed", [⟨"janus", "main", "6kpsY+KcUgq+9VB7Ey7F+ZVHdq6+vnuSQh7qaRRG0iw=", ["jobs:read"]⟩]⟩

def sampleKeys : BTreeMap PublicKeyRecord :=
  OrderedMap.insert .empty "main" ⟨"janus", samplePublicKey, permissionSet ["jobs:read"]⟩

lemma load_sampleConfig : loadFromConfig sampleLibraries sampleConfig = .ok sampleKeys := by
  rfl

def sampleRequest (body : Bytes) : Request :=
  { method := "GET", pathAndQuery := "/jobs", body
    headers := [("x-janus-key-id", .text "main"),
      ("x-janus-timestamp", .text "2026-01-01T00:05:00Z"), ("x-janus-nonce", .text "nonce-1"),
      ("x-janus-content-sha256",
        .text "e3b0c44298fc1c149afbf4c8996fb92427ae41e4649b934ca495991b7852b855"),
      ("x-janus-signature", .text
        "ed25519:msHPMpBlH2bJKx+tsesUfUvFfz3i30Zh9qf6/9mPrpzqu8XIKvzEat8niokS7TCigdE6zeDrGQwe2FVfQ3bdBg==")] }

def verifying (request : Request) : List AuthEvent :=
  [.start request, .step 0 (), .step 0 (), .step 0 (), .finish 0]

def sampleSigned : SignedRequest :=
  { keyId := "main", timestamp := "2026-01-01T00:05:00Z", nonce := "nonce-1", body := []
    signature :=
      "ed25519:msHPMpBlH2bJKx+tsesUfUvFfz3i30Zh9qf6/9mPrpzqu8XIKvzEat8niokS7TCigdE6zeDrGQwe2FVfQ3bdBg==" }

theorem accepted_again : ¬ ∀ (L : Libraries) (config : AuthConfig) (keys : BTreeMap PublicKeyRecord),
    loadFromConfig L config = .ok keys → ∀ (clock : ℤ) (signed : SignedRequest)
      (es : List AuthEvent),
      (authSystem L keys).Along (fun _ e => e ≠ .crash) es { store := .new clock, tasks := [] } →
      (authSystem L keys).AtMostOnce (fun p e => accepted? L keys p e = some signed) es
        { store := .new clock, tasks := [] } := by
  intro h
  have hrun := h sampleLibraries sampleConfig sampleKeys load_sampleConfig (seconds 1767225600)
    sampleSigned (verifying (sampleRequest []) ++
      .environment 600500000000 :: verifying (sampleRequest [])) (by decide +kernel)
  revert hrun
  decide +kernel

def laterLibraries : Libraries :=
  { sampleLibraries with
    parseFromRfc3339 := fun text =>
      if text = "2026-01-01T00:16:40Z" then some (seconds 1767226600)
      else sampleLibraries.parseFromRfc3339 text }

def laterRequest : Request :=
  { sampleRequest [] with
    headers := [("x-janus-key-id", .text "main"),
      ("x-janus-timestamp", .text "2026-01-01T00:16:40Z"), ("x-janus-nonce", .text "nonce-2"),
      ("x-janus-content-sha256",
        .text "e3b0c44298fc1c149afbf4c8996fb92427ae41e4649b934ca495991b7852b855"),
      ("x-janus-signature", .text sampleSigned.signature)] }

def forgettingRun : List AuthEvent :=
  verifying (sampleRequest []) ++ .environment 1500000000 :: verifying (sampleRequest []) ++
    .environment 698500000000 :: verifying laterRequest ++
    [.start (sampleRequest []), .step 0 (), .finish 0]

theorem accepted_at_most_once_forgotten :
    ((authSystem laterLibraries sampleKeys).run (forgettingRun.take 6)
        { store := .new (seconds 1767225900), tasks := [] }).any
      (fun p => p.store.seenNonces.containsKey (replayKey "main" "nonce-1")) = true ∧
    ((authSystem laterLibraries sampleKeys).run forgettingRun
        { store := .new (seconds 1767225900), tasks := [] }).any
      (fun p => !p.store.seenNonces.containsKey (replayKey "main" "nonce-1")) = true ∧
    (authSystem laterLibraries sampleKeys).AtMostOnce
      (fun p e => accepted? laterLibraries sampleKeys p e = some sampleSigned) forgettingRun
      { store := .new (seconds 1767225900), tasks := [] } :=
  ⟨by decide +kernel, by decide +kernel, accepted_at_most_once _ _ (by decide +kernel)⟩

theorem replay_rejection_unjustified :
    ¬ ∀ (L : Libraries) (config : AuthConfig) (keys : BTreeMap PublicKeyRecord),
    loadFromConfig L config = .ok keys → ∀ (clock : ℤ) (es : List AuthEvent),
      (authSystem L keys).Along (fun _ e => e ≠ .crash) es { store := .new clock, tasks := [] } →
      (authSystem L keys).Along (fun p e => ∀ request ∈ rejectedAsReplay? L keys p e,
        ∃ earlier ∈ p.store.recorded, authentic L keys earlier = true ∧
          earlier.keyAndNonce = request.keyAndNonce) es { store := .new clock, tasks := [] } := by
  intro h
  have hrun := h sampleLibraries sampleConfig sampleKeys load_sampleConfig (seconds 1767225900)
    (verifying (sampleRequest [0]) ++ verifying (sampleRequest [])) (by decide +kernel)
  revert hrun
  decide +kernel

theorem replay_rejections_justified_sample :
    (authSystem sampleLibraries sampleKeys).Along (fun p e =>
      (∀ request ∈ rejectedAsReplay? sampleLibraries sampleKeys p e,
        ∃ earlier ∈ p.store.recorded, authentic sampleLibraries sampleKeys earlier = true ∧
          earlier.keyAndNonce = request.keyAndNonce) ∧
      ∀ p', (authSystem sampleLibraries sampleKeys).apply p e = some p' →
        accepted? sampleLibraries sampleKeys p e = none → ∀ key t,
          p'.store.seenNonces.get key = some t → p.store.seenNonces.get key = some t)
      (verifying (sampleRequest []) ++ verifying (sampleRequest []))
      { store := .new (seconds 1767225900), tasks := [] } :=
  replay_rejections_justified _ (by decide +kernel)

end Janus.Runner
