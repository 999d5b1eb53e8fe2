import Mathlib.Algebra.Order.Group.Int
import Janus.Data.FixedWindow
import Janus.Runner.Models

/-! The limit on the requests of a token: `rate_limit.rs`. Each key is counted in windows of its own,
whatever the others do. -/

namespace Janus.Runner

open Janus.Data Janus.Server

structure RateWindow where
  startedAt : Instant
  count : ℕ
  deriving DecidableEq

structure RateLimitExceeded where
  limit : ℕ
  windowSeconds : ℕ
  deriving DecidableEq

abbrev RateWindows := BTreeMap RateWindow

def staleWindow (window : ℕ) : ℕ :=
  if window * 2 / 1000000000 < 2 ^ 64 then window * 2 else window

def pruneExpiredWindows (windows : RateWindows) (now : Instant) (maxAge : ℕ) : RateWindows :=
  windows.retain fun _ rateWindow => decide (now.durationSince rateWindow.startedAt < maxAge)

def rateLimitKey (scope tokenName : String) : String := scope ++ ":" ++ tokenName

def RateWindow.current (windows : RateWindows) (key : String) (window : ℕ) (now : Instant) :
    RateWindow :=
  let rateWindow := (windows.get key).getD ⟨now, 0⟩
  if window ≤ now.durationSince rateWindow.startedAt then ⟨now, 0⟩ else rateWindow

def RateWindows.check (windows : RateWindows) (scope tokenName : String) (limit window : ℕ)
    (now : Instant) : Except RateLimitExceeded Unit × RateWindows :=
  let key := rateLimitKey scope tokenName
  let windows := pruneExpiredWindows windows now (staleWindow window)
  let rateWindow := RateWindow.current windows key window now
  if limit ≤ rateWindow.count then
    (.error ⟨limit, window / 1000000000⟩, windows.insert key rateWindow)
  else (.ok (), windows.insert key { rateWindow with count := rateWindow.count + 1 })

structure CheckCall where
  scope : String
  tokenName : String
  now : Instant

def CheckCall.key (call : CheckCall) : String := rateLimitKey call.scope call.tokenName

structure Decided where
  call : CheckCall
  starts : Bool
  result : Except RateLimitExceeded Unit

def CheckCall.starts (call : CheckCall) (windows : RateWindows) (window : ℕ) : Bool :=
  ((pruneExpiredWindows windows call.now (staleWindow window)).get call.key).all fun rateWindow =>
    decide (window ≤ call.now.durationSince rateWindow.startedAt)

def checks (limit window : ℕ) : RateWindows → List CheckCall → List Decided
  | _, [] => []
  | windows, call :: calls =>
    let answer := windows.check call.scope call.tokenName limit window call.now
    ⟨call, call.starts windows window, answer.1⟩ :: checks limit window answer.2 calls

def acceptedCalls (p : Instant → Prop) [DecidablePred p] (log : List Decided) : ℕ :=
  log.countP fun d => d.result.isOk && decide (p d.call.now)

def RateWindow.fixed (rateWindow : RateWindow) : FixedWindow ℤ :=
  ⟨rateWindow.startedAt, rateWindow.count⟩

def Tracks (window : ℕ) (t : Instant) (windows : RateWindows) (key : String)
    (w? : Option (FixedWindow ℤ)) : Prop :=
  ∀ now, t ≤ now → FixedWindow.live? (window : ℤ) now ((windows.get key).map RateWindow.fixed) =
    FixedWindow.live? (window : ℤ) now w?

section

variable {window : ℕ} {windows : RateWindows} {key : String} {call : CheckCall} {t : Instant}
variable {w? : Option (FixedWindow ℤ)}

lemma Tracks.mono {t' : Instant} (h : Tracks window t windows key w?) (ht : t ≤ t') :
    Tracks window t' windows key w? :=
  fun now hnow => h now (ht.trans hnow)

lemma expired_iff {now startedAt : ℤ} (hwindow : 0 < window) :
    window ≤ Instant.durationSince now startedAt ↔ ¬now < startedAt + window := by
  unfold Instant.durationSince
  omega

lemma le_staleWindow (window : ℕ) : window ≤ staleWindow window := by
  unfold staleWindow
  split <;> omega

lemma live_prune (hwindow : 0 < window) {now now' : Instant} (h : now ≤ now') :
    FixedWindow.live? (window : ℤ) now'
        (((pruneExpiredWindows windows now (staleWindow window)).get key).map RateWindow.fixed) =
      FixedWindow.live? (window : ℤ) now' ((windows.get key).map RateWindow.fixed) := by
  have hstale := le_staleWindow window
  cases hkept : (pruneExpiredWindows windows now (staleWindow window)).get key with
  | some rateWindow => rw [(OrderedMap.get_retain.mp hkept).1]
  | none =>
    cases hget : windows.get key with
    | none => rfl
    | some rateWindow =>
      have hgone : ¬now.durationSince rateWindow.startedAt < staleWindow window := by
        intro hlt
        have hmem : (pruneExpiredWindows windows now (staleWindow window)).get key =
            some rateWindow := OrderedMap.get_retain.mpr ⟨hget, decide_eq_true hlt⟩
        cases hkept.symm.trans hmem
      have hended : ¬now' < rateWindow.startedAt + (window : ℤ) := by
        have hlate := (expired_iff hwindow).mp (hstale.trans (Nat.not_lt.mp hgone))
        exact not_lt.mpr ((not_lt.mp hlate).trans h)
      simp [FixedWindow.live?, RateWindow.fixed, Option.filter, hended]

lemma current_fixed (hwindow : 0 < window) (now : Instant) :
    (RateWindow.current windows key window now).fixed =
      FixedWindow.enter (window : ℤ) now ((windows.get key).map RateWindow.fixed) := by
  unfold RateWindow.current FixedWindow.enter FixedWindow.live?
  cases windows.get key with
  | none => simp [Option.filter, RateWindow.fixed]
  | some rateWindow =>
    by_cases hlive : now < rateWindow.startedAt + (window : ℤ)
    · have hkept := mt (expired_iff hwindow).mp (not_not.mpr hlive)
      simp [Option.filter, RateWindow.fixed, hlive, hkept]
    · have hended := (expired_iff hwindow).mpr hlive
      simp [Option.filter, RateWindow.fixed, hlive, hended]

lemma starts_eq (hwindow : 0 < window) : call.starts windows window =
    (FixedWindow.live? (window : ℤ) call.now
      ((windows.get call.key).map RateWindow.fixed)).isNone := by
  rw [← live_prune hwindow (le_refl call.now), CheckCall.starts]
  cases (pruneExpiredWindows windows call.now (staleWindow window)).get call.key with
  | none => rfl
  | some rateWindow =>
    by_cases hlive : call.now < rateWindow.startedAt + (window : ℤ)
    · have hkept := mt (expired_iff hwindow).mp (not_not.mpr hlive)
      simp [FixedWindow.live?, Option.filter, RateWindow.fixed, hlive, hkept]
    · have hended := (expired_iff hwindow).mpr hlive
      simp [FixedWindow.live?, Option.filter, RateWindow.fixed, hlive, hended]

lemma check_own (limit : ℕ) (hwindow : 0 < window) (h : Tracks window call.now windows call.key w?) :
    let e := FixedWindow.enter (window : ℤ) call.now w?
    let answer := windows.check call.scope call.tokenName limit window call.now
    answer.1 = (if e.count < limit then .ok () else .error ⟨limit, window / 1000000000⟩) ∧
      (answer.2.get call.key).map RateWindow.fixed = some (FixedWindow.take limit e) := by
  have henter : (RateWindow.current (pruneExpiredWindows windows call.now (staleWindow window))
      call.key window call.now).fixed = FixedWindow.enter (window : ℤ) call.now w? := by
    rw [current_fixed hwindow, FixedWindow.enter, live_prune hwindow (le_refl call.now),
      h call.now (le_refl call.now), FixedWindow.enter]
  have hcount := congrArg FixedWindow.count henter
  simp only [RateWindow.fixed] at hcount
  intro e answer
  by_cases hlt : e.count < limit
  · have hbelow := Nat.not_le.mpr (hcount.trans_lt hlt)
    have hanswer : answer = (.ok (), _) := if_neg hbelow
    rw [hanswer, if_pos hlt, FixedWindow.take_of_lt hlt]
    refine ⟨rfl, (congrArg (Option.map RateWindow.fixed) OrderedMap.get_insert_self).trans ?_⟩
    exact congrArg (fun w => some { w with count := w.count + 1 }) henter
  · have hfull := (Nat.not_lt.mp hlt).trans_eq hcount.symm
    have hanswer : answer = (.error _, _) := if_pos hfull
    rw [hanswer, if_neg hlt, FixedWindow.take_of_le (Nat.not_lt.mp hlt)]
    refine ⟨rfl, (congrArg (Option.map RateWindow.fixed) OrderedMap.get_insert_self).trans ?_⟩
    exact congrArg some henter

lemma check_other (limit : ℕ) (hwindow : 0 < window) (hkey : call.key ≠ key)
    (h : Tracks window call.now windows key w?) :
    Tracks window call.now (windows.check call.scope call.tokenName limit window call.now).2 key
      w? := by
  have hget : (windows.check call.scope call.tokenName limit window call.now).2.get key =
      (pruneExpiredWindows windows call.now (staleWindow window)).get key := by
    have hne : key ≠ rateLimitKey call.scope call.tokenName := Ne.symm hkey
    unfold RateWindows.check
    simp only
    split <;> exact OrderedMap.get_insert_of_ne hne
  intro now hnow
  rw [hget, live_prune hwindow hnow]
  exact h now hnow

end

def Decided.of (limit window : ℕ) (call : CheckCall) (use : FixedWindow.Use ℤ) : Decided :=
  ⟨call, use.starts, if use.accepted then .ok () else .error ⟨limit, window / 1000000000⟩⟩

def Decided.use (d : Decided) : FixedWindow.Use ℤ := ⟨d.call.now, d.starts, d.result.isOk⟩

section

variable {limit window : ℕ} {windows : RateWindows} {key : String} {w? : Option (FixedWindow ℤ)}

theorem checks_own (hwindow : 0 < window) {calls : List CheckCall} {t : Instant}
    (h : Tracks window t windows key w?) (hcalls : calls.Pairwise fun c c' => c.now ≤ c'.now)
    (hlater : ∀ call ∈ calls, t ≤ call.now) :
    (checks limit window windows calls).filter (fun d => d.call.key = key) =
      List.zipWith (Decided.of limit window) (calls.filter fun call => call.key = key)
        (FixedWindow.uses limit (window : ℤ) w?
          ((calls.filter fun call => call.key = key).map CheckCall.now)) := by
  induction calls generalizing windows w? t with
  | nil => rfl
  | cons call calls ih =>
    obtain ⟨hrest, htail⟩ := List.pairwise_cons.mp hcalls
    have hnow := h.mono (hlater call List.mem_cons_self)
    by_cases hkey : call.key = key
    · subst hkey
      obtain ⟨hresult, hwindows⟩ := check_own limit hwindow hnow
      have htracks : Tracks window call.now
          (windows.check call.scope call.tokenName limit window call.now).2 call.key
          (some (FixedWindow.take limit (FixedWindow.enter (window : ℤ) call.now w?))) :=
        fun now _ => by rw [hwindows]
      have hrec := ih htracks htail hrest
      simp only [checks, List.filter_cons, decide_true, if_true, List.map_cons, FixedWindow.uses,
        List.zipWith_cons_cons, hrec, Decided.of, hresult, starts_eq hwindow, hnow call.now le_rfl,
        decide_eq_true_eq]
    · have hrec := ih (check_other limit hwindow hkey hnow) htail hrest
      simp only [checks, List.filter_cons, hkey, decide_false, hrec, if_false, Bool.false_eq_true]

lemma map_use_zipWith (calls : List CheckCall) : (List.zipWith (Decided.of limit window) calls
    (FixedWindow.uses limit (window : ℤ) w? (calls.map CheckCall.now))).map Decided.use =
      FixedWindow.uses limit (window : ℤ) w? (calls.map CheckCall.now) := by
  induction calls generalizing w? with
  | nil => rfl
  | cons call calls ih =>
    simp only [List.map_cons, FixedWindow.uses, List.zipWith_cons_cons, ih, Decided.use, Decided.of]
    split <;> simp_all [Except.isOk, Except.toBool]

lemma acceptedCalls_eq (p : Instant → Prop) [DecidablePred p] (log : List Decided) :
    acceptedCalls p log = FixedWindow.accepted p (log.map Decided.use) := by
  unfold acceptedCalls FixedWindow.accepted
  rw [List.countP_map]
  rfl

lemma call_mem_of_mem_checks {calls : List CheckCall} {d : Decided}
    (hd : d ∈ checks limit window windows calls) : d.call ∈ calls := by
  induction calls generalizing windows with
  | nil => cases hd
  | cons call calls ih =>
    rcases List.mem_cons.mp hd with rfl | hd
    · exact List.mem_cons_self
    · exact List.mem_cons_of_mem _ (ih hd)

lemma Tracks.empty {t : Instant} : Tracks window t .empty key none := fun _ _ => rfl

end

/-- The decisions on a key depend on its own calls only, each of its windows accepts up to the limit,
any time as long as a window twice that, and only a limit that is used up refuses a call. -/
theorem rate_limiter_law (limit : ℕ) {window : ℕ} (hwindow : 0 < window) {calls : List CheckCall}
    (hcalls : calls.Pairwise fun c c' => c.now ≤ c'.now) (key : String) :
    let own := (checks limit window .empty calls).filter fun d => d.call.key = key
    own = checks limit window .empty (calls.filter fun call => call.key = key) ∧
      (∀ pre seg post, own = pre ++ (seg ++ post) → (∀ d ∈ seg.tail, d.starts = false) →
        acceptedCalls (fun _ => True) seg ≤ limit) ∧
      (∀ t, acceptedCalls (fun now => t ≤ now ∧ now ≤ t + window) own ≤ 2 * limit) ∧
      ∀ pre d post, own = pre ++ d :: post → d.result.isOk = false →
        limit ≤ acceptedCalls (fun now => d.call.now < now + window) pre := by
  have hown : ∀ cs : List CheckCall, cs.Pairwise (fun c c' => c.now ≤ c'.now) →
      (checks limit window .empty cs).filter (fun d => d.call.key = key) =
        List.zipWith (Decided.of limit window) (cs.filter fun call => call.key = key)
          (FixedWindow.uses limit (window : ℤ) none
            ((cs.filter fun call => call.key = key).map CheckCall.now)) := by
    intro cs hcs
    cases cs with
    | nil => rfl
    | cons c cs =>
      refine checks_own hwindow (t := c.now) Tracks.empty hcs fun call hcall => ?_
      rcases List.mem_cons.mp hcall with rfl | hcall
      · exact le_refl _
      · exact List.rel_of_pairwise_cons hcs hcall
  have huses : ((checks limit window .empty calls).filter fun d => d.call.key = key).map
      Decided.use = FixedWindow.uses limit (window : ℤ) none
        ((calls.filter fun call => call.key = key).map CheckCall.now) := by
    rw [hown calls hcalls, map_use_zipWith]
  have hsorted : ((calls.filter fun call => call.key = key).map CheckCall.now).Pairwise (· ≤ ·) :=
    List.pairwise_map.mpr (hcalls.filter _)
  have hpos : (0 : ℤ) < window := Int.natCast_pos.mpr hwindow
  intro own
  refine ⟨?_, fun pre seg post hsplit hseg => ?_, fun t => ?_, fun pre d post hsplit hrefused => ?_⟩
  · have hall : (checks limit window .empty (calls.filter fun call => call.key = key)).filter
        (fun d => d.call.key = key) =
          checks limit window .empty (calls.filter fun call => call.key = key) :=
      List.filter_eq_self.mpr fun d hd => (List.mem_filter.mp (call_mem_of_mem_checks hd)).2
    rw [← hall, hown _ (hcalls.filter _), List.filter_filter]
    simpa using hown calls hcalls
  · have hmap : FixedWindow.uses limit (window : ℤ) none
        ((calls.filter fun call => call.key = key).map CheckCall.now) =
          pre.map Decided.use ++ (seg.map Decided.use ++ post.map Decided.use) := by
      rw [← huses, ← List.map_append, ← List.map_append]
      exact congrArg (List.map Decided.use) hsplit
    rw [acceptedCalls_eq]
    refine FixedWindow.accepted_between_starts hmap fun u hu => ?_
    rw [← List.map_tail] at hu
    obtain ⟨d, hd, rfl⟩ := List.mem_map.mp hu
    exact hseg d hd
  · rw [acceptedCalls_eq, huses]
    exact FixedWindow.accepted_within hpos hsorted t
  · have hmap : FixedWindow.uses limit (window : ℤ) none
        ((calls.filter fun call => call.key = key).map CheckCall.now) =
          pre.map Decided.use ++ d.use :: post.map Decided.use := by
      rw [← huses, ← List.map_cons, ← List.map_append]
      exact congrArg (List.map Decided.use) hsplit
    rw [acceptedCalls_eq]
    exact FixedWindow.accepted_before_refused hsorted hmap hrefused

theorem rate_limiter_law_two :
    (checks 1 10 .empty [⟨"jobs_run", "a", 0⟩, ⟨"jobs_run", "b", 3⟩, ⟨"jobs_run", "a", 5⟩]).map
        (fun d => d.result.isOk) = [true, true, false] ∧
      acceptedCalls (fun now => (0 : ℤ) ≤ now ∧ now ≤ 0 + 10)
        ((checks 1 10 .empty [⟨"jobs_run", "a", 0⟩, ⟨"jobs_run", "b", 3⟩, ⟨"jobs_run", "a", 5⟩]).filter
          fun d => d.call.key = "jobs_run:a") ≤ 2 * 1 :=
  ⟨by decide +kernel, (rate_limiter_law 1 (by decide) (by decide) "jobs_run:a").2.2.1 0⟩

end Janus.Runner
