import Janus.Concurrency.Chronicle
import Janus.Web.Footprint

/-! The site's tasks under disciplines that tell what the calls before have met. -/

namespace Janus.Web

open Janus.Concurrency Janus.Data Janus.Server

/-- The site, and what its earlier calls have met. -/
abbrev Annals := Site × List Site

def Earlier (app : WebState) (p : SitePool) (es : List SiteEvent) (s : Site) : Prop :=
  ∃ before, before <+: es ∧ ∃ q, (site app).run before p = some q ∧ q.store = s

section

variable {σ α : Type} {D : Discipline SiteCall SiteCall.Result String σ} {Q : α → σ → Prop} {x : σ}

def onServerDiscipline (D : Discipline SiteCall SiteCall.Result String σ) :
    Discipline Call Call.Result String σ where
  rely := D.rely
  inv := D.inv
  admits c := D.admits (.server c)
  before c := D.before (.server c)

lemma safe_onServer {post : Except String α → σ → Prop} {p : Server.Task α}
    (h : Safe (onServerDiscipline D) post p x) : Safe D post (onServer p) x := by
  induction p generalizing x with
  | done r => exact h
  | call c next ih =>
    intro x' hr hi
    obtain ⟨hb, hn⟩ := h x' hr hi
    exact ⟨hb, fun a x'' ha => ih a (hn a x'' ha)⟩

lemma gives_onServer {p : Server.Task α} (h : Gives (onServerDiscipline D) Q p x) :
    Gives D Q (onServer p) x := safe_onServer h

lemma gives_internalError {p : WebTask α} (h : Gives D Q p x) : Gives D Q (internalError p) x := by
  refine .bind (.attempt h) fun r x' hr => ?_
  cases r with
  | ok a => exact .pure (hr a rfl)
  | error e => exact .fail

lemma gives_okOr {value : Option α} {message : String} (h : ∀ a, value = some a → Q a x) :
    Gives D Q (okOr value message) x := by
  cases value with
  | none => exact .fail
  | some a => exact .pure (h a rfl)

end

lemma exec_server {app : AppState} {c : Call} {a : Except String c.Result} {o : SiteOutcome}
    {s s' : Site} (h : SiteCall.exec app o s (.server c) = (a, s')) :
    c.exec app o.toOutcome s.toStore = (a, s'.toStore) ∧
      s'.unsettled = unsettledAfter s.unsettled c a := by
  obtain ⟨rfl, rfl⟩ := Prod.mk.inj h
  exact ⟨rfl, rfl⟩

def SiteCall.Leads (app : AppState) (c : SiteCall) (s : Site) (a : Except String c.Result) (s' : Site) :
    Prop :=
  ∃ o, c.exec app o s = (a, s')

def Call.Leads (app : AppState) (c : Call) (s : Site) (a : Except String c.Result) (s' : Site) : Prop :=
  ∃ o : Outcome, c.exec app o s.toStore = (a, s'.toStore)

section

variable {app : AppState} {D : Discipline SiteCall SiteCall.Result String Annals}
variable {quiet : SiteCall → Prop} {later : Annals → Annals → Prop} {A : Annals → Prop} {x : Annals}

lemma chronicled_onServer (h : Chronicled D (SiteCall.Leads app) quiet later) :
    Chronicled (onServerDiscipline D) (Call.Leads app) (fun c => quiet (.server c)) later where
  rely := h.rely
  before c := h.before (.server c)
  exec c x a x' ha := by
    obtain ⟨⟨o, ho⟩, hpast⟩ := h.exec (.server c) x a x' ha
    exact ⟨⟨o.toOutcome, (exec_server ho).1⟩, hpast⟩
  admits c := h.admits (.server c)

lemma gives_query (h : Chronicled D (SiteCall.Leads app) quiet later) {q : WebQuery}
    {Q : q.Result → Annals → Prop} (hA : Lasts later A) (hq : quiet (.query q))
    (hQ : ∀ x x', A x → A x' → x'.1 = x.1 → x'.2 = x.1 :: x.2 →
      D.admits (.query q) x (.ok (q.eval x.1.db)) x' → Q (q.eval x.1.db) x')
    (hx : A x) : Gives D Q (call (.query q)) x := by
  refine .request hx (fun x x' hx hr _ => hA x x' hx (h.rely x x' hr)) fun x' hx' _ => ?_
  refine ⟨h.before _ x' hq, fun a x'' ha b hb => ?_⟩
  subst hb
  have hx'' := hA x' x'' hx' (h.admits _ x' _ x'' (h.before _ x' hq) ha)
  obtain ⟨⟨o, ho⟩, hpast⟩ := h.exec _ _ _ _ ha
  simp only [SiteCall.exec] at ho
  split at ho
  · cases ho
  · obtain ⟨hanswer, hs⟩ := Prod.mk.inj ho
    obtain rfl := Except.ok.inj hanswer
    exact hQ x' x'' hx' hx'' hs.symm hpast ha

end

end Janus.Web
