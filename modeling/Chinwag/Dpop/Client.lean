import Chinwag.Dpop.OneTimeUse
import Chinwag.Dpop.Routes

/-!
# The client's requests and the services that answer them

`doFetch` runs behind a chain of promises, each of its requests is handled by some service, and the
services share one Redis. What a task does is a program; a request it waits for is on its way until
its answer arrives or the client stops waiting.
-/
namespace Chinwag.Handshake

open Dpop Program StringKeys

/-- The arguments of a `doFetch`. -/
structure FetchCall where
  url : String
  method : String
  headers : List (String × String)
  body : Option String

/-- What a task of the client waits for or reads and writes in between. -/
inductive ClientCmd where
  | readNonce
  | setDPoPNonce (nonce : String)
  | createDPoPProof (method url : String) (nonce : Option String)
  | fetch (c : FetchCall) (dpop : String)

abbrev ClientReply : ClientCmd → Type
  | .readNonce => Option String
  | .setDPoPNonce _ => Unit
  | .createDPoPProof _ _ _ => Except String String
  | .fetch _ _ => Except String Response

abbrev ClientProg (α : Type) := Prog ClientCmd ClientReply α

open Prog (perform)

/-- `captureDPoPNonce`; an empty header counts as none when it is stored. -/
def captureDPoPNonce (res : Response) : ClientProg (Option String) := do
  match res.nonce with
  | none => return none
  | some nonce =>
    if nonce = "" then return some nonce
    else
      perform (ClientCmd.setDPoPNonce nonce)
      return some nonce

def fetchWithProof (c : FetchCall) (nonce : Option String) : ClientProg (Except String Response) := do
  match ← perform (ClientCmd.createDPoPProof c.method c.url nonce) with
  | .error e => return .error e
  | .ok proof => perform (ClientCmd.fetch c proof)

/-- The loop of `doFetch`, with the retries that are left. -/
def retryLoop (c : FetchCall) : Nat → Response → Option String → ClientProg (Except String Response)
  | 0, res, _ => return .ok res
  | left + 1, res, challengeNonce =>
    if isUseNonceResponse res then
      match challengeNonce with
      | none => return .ok res
      | some nonce =>
        if nonce = "" then return .ok res
        else do
          match ← fetchWithProof c (some nonce) with
          | .error e => return .error e
          | .ok res =>
            let challengeNonce ← captureDPoPNonce res
            retryLoop c left res challengeNonce
    else return .ok res

/-- What `doFetch` gives to `withDPoPGate`. -/
def gatedFetch (c : FetchCall) : ClientProg (Except String Response) := do
  let nonce ← perform ClientCmd.readNonce
  match ← fetchWithProof c nonce with
  | .error e => return .error e
  | .ok res =>
    let challengeNonce ← captureDPoPNonce res
    retryLoop c 2 res challengeNonce

/-- A call of `doFetch`: its turn has not come, it runs, or it waits for the answer to a request. -/
inductive Stage where
  | queued (c : FetchCall)
  | running (p : ClientProg (Except String Response))
  | awaiting (r : Nat) (next : Except String Response → ClientProg (Except String Response))

/-- With the promise that `dpopGate` became of it, settled or not, and the requests it has sent. -/
structure Task where
  stage : Stage
  gate : Bool
  attempts : List Nat

def Task.settled (task : Task) : Prop := ∃ res, task.stage = .running (.ret res)

/-- The nonce in a proof that can be read. -/
def nonceOf (lib : Libraries) (raw : String) : Option String :=
  match parseProof lib raw with
  | .ok proof => some proof.claims.nonce
  | .error _ => none

/-- Redis, and the requests that arrived so far. -/
structure Traffic where
  redis : DpopState
  arrived : List Request

def Traffic.presents (lib : Libraries) (s : Traffic) (r : Nat) : Option String :=
  s.arrived[r]?.bind fun req => nonceOf lib req.dpop

/-- Redis would find the nonce. -/
def Traffic.live (s : Traffic) (nonce : String) : Prop := s.redis.keys.get (nonceKey nonce) ≠ none

/-- How a command of request `r` is answered. A nonce can always be issued, and is a text that stood
in no proof before. -/
structure Answers (lib : Libraries) (r : Nat) (c : DpopCmd) (s : Traffic) (reply : DpopReply c) (t : Traffic) :
    Prop where
  exec : Exec r c s.redis reply t.redis
  arrived : t.arrived = s.arrived
  drawn : ∀ answer, (⟨c, reply⟩ : Σ c, DpopReply c) = ⟨.issueNonce, answer⟩ →
    ∃ nonce, answer = .ok nonce ∧ nonce ≠ "" ∧ ∀ j, s.presents lib j ≠ some nonce

abbrev Services := Pool Traffic DpopCmd DpopReply Outcome

/-- A request arrives at some service. -/
def arrive (services : Services) (req : Request) (p : DpopProg Outcome) : Services :=
  ⟨{ services.shared with arrived := services.shared.arrived ++ [req] }, services.threads ++ [p]⟩

def servicesSemantics (lib : Libraries) : Semantics Traffic Empty DpopCmd DpopReply where
  exec := Answers lib
  env _ e _ := nomatch e

structure World where
  dpopNonce : Option String
  tasks : List Task
  services : Services

def World.setTask (w : World) (i : Nat) (task : Task) : World := { w with tasks := w.tasks.set i task }

/-- The nonce of a challenge that has not been answered by a retry yet. -/
def World.challenged (lib : Libraries) (w : World) (nonce : String) : Prop :=
  ∃ task ∈ w.tasks, ¬ task.settled ∧ ∃ r, task.attempts.getLast? = some r ∧
    ((∃ o, w.services.threads[r]? = some (.ret o) ∧ isUseNonceResponse o.response = true ∧
        o.response.nonce = some nonce) ∨
      1 < task.attempts.length ∧ w.services.shared.presents lib r = some nonce)

/-- Time passes and other clients come and go. No nonce expires between a challenge and its retry,
and none that was gone comes back. -/
structure Others (lib : Libraries) (w : World) (redis : DpopState) : Prop where
  now : w.services.shared.redis.keys.now ≤ redis.keys.now
  issued : ∀ nonce ∈ w.services.shared.redis.issued, nonce ∈ redis.issued
  challenged : ∀ nonce, w.challenged lib nonce → w.services.shared.live nonce →
    redis.keys.get (nonceKey nonce) ≠ none
  gone : ∀ nonce ∈ w.services.shared.redis.issued, redis.keys.get (nonceKey nonce) ≠ none →
    w.services.shared.live nonce

inductive Event where
  | call (c : FetchCall)
  | start (i : Nat)
  | client (i : Nat)
  | send (i : Nat)
  | serve (r : Nat)
  | answer (i : Nat)
  | lost (i : Nat)
  | settle (i : Nat)
  | others

section Steps

variable (lib : Libraries)

/-- One step of the client, of a request at its service, or of the others. -/
inductive WorldStep : World → Event → World → Prop where
  | call (w : World) (c : FetchCall) :
      WorldStep w (.call c) { w with tasks := w.tasks ++ [⟨.queued c, false, []⟩] }
  | start {w : World} {i : Nat} {task : Task} {c : FetchCall} (hi : w.tasks[i]? = some task)
      (hstage : task.stage = .queued c)
      (hgate : ∀ j before, i = j + 1 → w.tasks[j]? = some before → before.gate = true) :
      WorldStep w (.start i) (w.setTask i { task with stage := .running (gatedFetch c) })
  | readNonce {w : World} {i : Nat} {task : Task} {next : Option String → ClientProg (Except String Response)}
      (hi : w.tasks[i]? = some task) (hstage : task.stage = .running (.call .readNonce next)) :
      WorldStep w (.client i) (w.setTask i { task with stage := .running (next w.dpopNonce) })
  | setNonce {w : World} {i : Nat} {task : Task} {nonce : String}
      {next : Unit → ClientProg (Except String Response)} (hi : w.tasks[i]? = some task)
      (hstage : task.stage = .running (.call (.setDPoPNonce nonce) next)) :
      WorldStep w (.client i)
        { w.setTask i { task with stage := .running (next ()) } with dpopNonce := some nonce }
  | prove {w : World} {i : Nat} {task : Task} {method url raw : String} {nonce : Option String}
      {next : Except String String → ClientProg (Except String Response)} (hi : w.tasks[i]? = some task)
      (hstage : task.stage = .running (.call (.createDPoPProof method url nonce) next))
      (hraw : nonceOf lib raw = some (nonce.getD "")) :
      WorldStep w (.client i) (w.setTask i { task with stage := .running (next (.ok raw)) })
  | proofFailed {w : World} {i : Nat} {task : Task} {method url : String} {nonce : Option String}
      {next : Except String String → ClientProg (Except String Response)} (e : String)
      (hi : w.tasks[i]? = some task)
      (hstage : task.stage = .running (.call (.createDPoPProof method url nonce) next)) :
      WorldStep w (.client i) (w.setTask i { task with stage := .running (next (.error e)) })
  | send {w : World} {i : Nat} {task : Task} {c : FetchCall} {raw : String}
      {next : Except String Response → ClientProg (Except String Response)} {req : Request}
      {p : DpopProg Outcome} (hi : w.tasks[i]? = some task)
      (hstage : task.stage = .running (.call (.fetch c raw) next)) (hdpop : req.dpop = raw)
      (hp : Handles lib req p) :
      WorldStep w (.send i)
        { w.setTask i ⟨.awaiting w.services.threads.length next, task.gate,
            task.attempts ++ [w.services.threads.length]⟩ with services := arrive w.services req p }
  | serve {w : World} {r : Nat} {l : Label Empty DpopCmd DpopReply Outcome}
      {services : Services}
      (h : Step (servicesSemantics lib) (fun _ => False) w.services l services) :
      WorldStep w (.serve r) { w with services := services }
  | answer {w : World} {i r : Nat} {task : Task} {o : Outcome}
      {next : Except String Response → ClientProg (Except String Response)} (hi : w.tasks[i]? = some task)
      (hstage : task.stage = .awaiting r next) (hr : w.services.threads[r]? = some (.ret o)) :
      WorldStep w (.answer i) (w.setTask i { task with stage := .running (next (.ok o.response)) })
  | lost {w : World} {i r : Nat} {task : Task}
      {next : Except String Response → ClientProg (Except String Response)} (e : String)
      (hi : w.tasks[i]? = some task) (hstage : task.stage = .awaiting r next) :
      WorldStep w (.lost i) (w.setTask i { task with stage := .running (next (.error e)) })
  | unavailable {w : World} {i r : Nat} {task : Task}
      {next : Except String Response → ClientProg (Except String Response)} (hi : w.tasks[i]? = some task)
      (hstage : task.stage = .awaiting r next) :
      WorldStep w (.lost i) (w.setTask i { task with stage := .running (next (.ok ⟨503, none, none⟩)) })
  | settle {w : World} {i : Nat} {task : Task} (hi : w.tasks[i]? = some task) (hdone : task.settled) :
      WorldStep w (.settle i) (w.setTask i { task with gate := true })
  | others {w : World} {redis : DpopState} (h : Others lib w redis) :
      WorldStep w .others
        { w with services := ⟨{ w.services.shared with redis := redis }, w.services.threads⟩ }

end Steps

end Chinwag.Handshake
