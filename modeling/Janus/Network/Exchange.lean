import Janus.Runner.Idempotency
import Janus.Server.Dispatch

/-! The server, one of its runners, and the requests between them that give jobs to the runner. -/

namespace Janus.Network

open Janus.Concurrency Janus.Data Janus.Server

structure Setting where
  app : AppState
  rt : Runner.Runtime
  runnerId : String
  keyText : Id → String
  /-- `serde_json::to_vec`. -/
  toVec : Value → Bytes

structure Message where
  jobRunId : Id
  name : String
  idempotencyKey : String
  body : Bytes
  deriving DecidableEq

def Message.AnsweredBy (m : Message) (a : Runner.Answer) : Prop :=
  a.name = m.name ∧ a.idempotencyKey = m.idempotencyKey ∧ a.body = m.body

instance (m : Message) (a : Runner.Answer) : Decidable (m.AnsweredBy a) :=
  inferInstanceAs (Decidable (_ ∧ _))

structure Exchange where
  server : ServerPool
  runner : Runner.RunnerPool
  sent : List Message := []

inductive ExchangeEvent
  | server (e : ServerEvent)
  | runner (e : Runner.RunnerEvent)
  | send (i : ℕ)

def Exchange.answers (x : Exchange) : List Runner.Answer := x.runner.store.history.answers

def Exchange.db (x : Exchange) : Database := x.server.store.db

def createdRun (a : Runner.Answer) : Option String :=
  match a.result with
  | .ok created => some created.jobId
  | .error _ => none

def Exchange.delivers (x : Exchange) : Runner.RunnerEvent → Bool
  | .start (.create _ name key body) =>
    x.sent.any fun m => m.name = name ∧ m.idempotencyKey = key ∧ m.body = body
  | _ => true

namespace Setting

variable (N : Setting)

def request? (x : Exchange) (i : ℕ) : Option Message :=
  match x.server.tasks[i]? with
  | some (_, .call (.runner runner (.createJobRun jobRunId name key body)) _) =>
    if runner.id = N.runnerId then some ⟨jobRunId, name, N.keyText key, N.toVec (.object body)⟩
    else none
  | _ => none

def received (reply : Except String HttpResponse) : Except String JobCreatedResponse :=
  RunnerRequest.receive N.app.limits reply (.createJobRun 0 "" 0 [])

def heard (x : Exchange) : ServerEvent → Bool
  | .step i o =>
    match N.request? x i, N.received o.reply with
    | some m, .ok created => x.sent.contains m &&
      x.answers.any fun a => m.AnsweredBy a ∧ createdRun a = some created.jobId
    | _, _ => true
  | _ => true

def apply (x : Exchange) : ExchangeEvent → Option Exchange
  | .server e =>
    if N.heard x e then ((server N.app).apply x.server e).map fun p => { x with server := p }
    else none
  | .runner e =>
    if x.delivers e then
      ((Runner.runnerSystem N.rt).apply x.runner e).map fun p => { x with runner := p }
    else none
  | .send i => (N.request? x i).map fun m => { x with sent := m :: x.sent }

def run : List ExchangeEvent → Exchange → Option Exchange
  | [], x => some x
  | e :: es, x => (N.apply x e).bind (run es)

def Along (P : Exchange → ExchangeEvent → Prop) : List ExchangeEvent → Exchange → Prop
  | [], _ => True
  | e :: es, x => ∀ x', N.apply x e = some x' → P x e ∧ Along P es x'

def Along.decide (P : Exchange → ExchangeEvent → Prop) [∀ x e, Decidable (P x e)] :
    (es : List ExchangeEvent) → (x : Exchange) → Decidable (N.Along P es x)
  | [], _ => isTrue trivial
  | e :: es, x =>
    match h : N.apply x e with
    | none => isTrue fun _ hx' => (nomatch h.symm.trans hx')
    | some x' =>
      have := Along.decide P es x'
      decidable_of_iff (P x e ∧ N.Along P es x')
        ⟨fun hp _ hy => Option.some.inj (h.symm.trans hy) ▸ hp, fun hp => hp x' h⟩

instance (P : Exchange → ExchangeEvent → Prop) [∀ x e, Decidable (P x e)]
    (es : List ExchangeEvent) (x : Exchange) : Decidable (N.Along P es x) :=
  Along.decide N P es x

end Setting

variable {N : Setting} {x x' : Exchange} {es : List ExchangeEvent}
variable {P Q : Exchange → ExchangeEvent → Prop}

lemma Setting.Along.mono (h : ∀ x e, P x e → Q x e) (hp : N.Along P es x) : N.Along Q es x := by
  induction es generalizing x with
  | nil => trivial
  | cons e es ih => exact fun x' hx' => ⟨h x e (hp x' hx').1, ih (hp x' hx').2⟩

lemma apply_cases {e : ExchangeEvent} (h : N.apply x e = some x') :
    (∃ d p, e = .server d ∧ N.heard x d = true ∧ (server N.app).apply x.server d = some p ∧
      x' = { x with server := p }) ∨
    (∃ d p, e = .runner d ∧ x.delivers d = true ∧
      (Runner.runnerSystem N.rt).apply x.runner d = some p ∧ x' = { x with runner := p }) ∨
    ∃ i m, e = .send i ∧ N.request? x i = some m ∧ x' = { x with sent := m :: x.sent } := by
  cases e with
  | server d =>
    simp only [Setting.apply, Option.ite_none_right_eq_some, Option.map_eq_some_iff] at h
    obtain ⟨hheard, p, hp, rfl⟩ := h
    exact .inl ⟨d, p, rfl, hheard, hp, rfl⟩
  | runner d =>
    simp only [Setting.apply, Option.ite_none_right_eq_some, Option.map_eq_some_iff] at h
    obtain ⟨hdelivers, p, hp, rfl⟩ := h
    exact .inr (.inl ⟨d, p, rfl, hdelivers, hp, rfl⟩)
  | send i =>
    obtain ⟨m, hm, rfl⟩ := Option.map_eq_some_iff.mp h
    exact .inr (.inr ⟨i, m, rfl, hm, rfl⟩)

end Janus.Network
