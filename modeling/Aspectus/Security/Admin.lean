import Aspectus.Discipline.Deployment
import Aspectus.Interaction.History
import Aspectus.Interaction.Run
import Aspectus.Security.Sample

/-!
This module contains that only the tokens the service was started with are accepted as admin tokens:
neither what is written to the rows of service tokens nor what is written to the cache makes any other
token one.
-/

namespace Aspectus

open Interaction Prog Machine Statement

/--
The service was started with an admin token that has this hash.
-/
def Seeded (cfg : Config) (log : List DeploymentEntry) (tokenHash : String) : Prop :=
  ∃ i adminToken, Started log i (.startUp (some adminToken)) ∧ adminToken ≠ ""
    ∧ tokenHash = cfg.sha256Text adminToken

/--
Only seeded tokens are stored or cached as admin tokens.
-/
structure Confined (cfg : Config) (log : List DeploymentEntry) (s : Server) : Prop where
  row : ∀ row, s.serviceTokens.lookup Project.aspectus.toString = some row →
    Seeded cfg log row.tokenHash
  cached : ∀ tokenHash entry, s.redis (ServiceTokenVerifier.cacheKey tokenHash) = some entry →
    entry.value = .text Project.aspectus.toString → Seeded cfg log tokenHash

variable {cfg : Config} {log : List DeploymentEntry} {s : Server}

theorem Seeded.cons {tokenHash : String} (h : Seeded cfg log tokenHash) (e : DeploymentEntry) :
    Seeded cfg (e :: log) tokenHash := by
  rcases h with ⟨i, adminToken, hstart, hne, hhash⟩
  exact ⟨i, adminToken, hstart.cons e, hne, hhash⟩

namespace Confined

theorem cons (h : Confined cfg log s) (e : DeploymentEntry) : Confined cfg (e :: log) s :=
  ⟨fun row hrow => (h.row row hrow).cons e,
    fun tokenHash entry hentry hvalue => (h.cached tokenHash entry hentry hvalue).cons e⟩

/--
What other endpoints write does not matter.
-/
theorem write (h : Confined cfg log s) (w : Elsewhere) : Confined cfg log (w.write s) := by
  constructor
  . intro row hrow
    rw [w.serviceTokens] at hrow
    exact h.row row hrow
  . intro tokenHash entry hentry hvalue
    rcases w.redis s _ entry hentry with hold | ⟨userId, hkey⟩ | ⟨name, bucket, hkey⟩
    . exact h.cached tokenHash entry hold hvalue
    . exact absurd hkey (append_ne_append (by decide) (by decide) _ _)
    . unfold rateLimitKey at hkey
      rw [String.append_assoc, String.append_assoc] at hkey
      exact absurd hkey (append_ne_append (by decide) (by decide) _ _)

/--
An operation that is allowed keeps the tokens confined, if the ones that were found were confined.
-/
theorem exec (h : Confined cfg log s) {i : Nat} {call : Call} (hstart : Started log i call)
    {events : List (Event Api)} {o : Op} (hwrite : MayWrite cfg call events o)
    (hfound : ∀ tokenHash token, Found events tokenHash token → token.project = .aspectus →
      Seeded cfg log tokenHash) (d : Draw)
    : Confined cfg log (o.exec cfg d s).2 := by
  constructor
  . intro row hrow
    rcases o.exec_serviceTokens cfg d s _ _ hrow with
      hold | ⟨_, row', _, _, hold, _, hhash, _⟩ | ⟨p, tokenPrefix, rfl, hproject, _⟩ | ⟨rfl, _⟩
    . exact h.row row hold
    . rw [hhash]
      exact h.row row' hold
    . have hadmin : Project.parse p.toString = some .aspectus := by
        rw [← hproject]
        rfl
      rw [Project.parse_toString] at hadmin
      injection hadmin with hadmin
      exact absurd hadmin hwrite
    . rcases hwrite with ⟨adminToken, rfl, hne, hhash⟩
      exact ⟨i, adminToken, hstart, hne, hhash⟩
  . intro tokenHash entry hentry hvalue
    rcases o.exec_redis cfg d s _ _ hentry with
      hold | ⟨value, ttl, rfl, _, rfl⟩ | ⟨value, ttl, rfl, _, rfl⟩ | ⟨name, bucket, n, _, hcounter⟩
    . exact h.cached tokenHash entry hold hvalue
    . contradiction
    . -- A text was stored, the discipline says which.
      rcases hwrite with ⟨userId, hkey⟩ | ⟨_, _, _, _, hkey⟩ | ⟨tokenHash', token, hkey, hf, htext⟩
      . exact absurd hkey (append_ne_append (by decide) (by decide) _ _)
      . exact absurd hkey (append_ne_append (by decide) (by decide) _ _)
      . have hhash : tokenHash = tokenHash' := append_right_injective hkey
        subst hhash
        apply hfound tokenHash token hf
        injection hvalue with hvalue
        have hproject : Project.parse token.project.toString = some .aspectus := by
          rw [← htext, hvalue]
          rfl
        rw [Project.parse_toString] at hproject
        injection hproject
    . rw [hcounter] at hvalue
      contradiction

end Confined

/--
A text that was read from the cache is stored there.
-/
theorem get_some {d : Draw} {key text : String} (h : (CacheOp.exec d s (.get key)).1 = some text)
    : ∃ entry, s.redis key = some entry ∧ entry.value = .text text := by
  unfold CacheOp.exec at h
  dsimp only at h
  split at h
  . next text' _ hcached =>
    injection h with h
    subst h
    rcases Server.cached_eq_some.mp hcached with ⟨entry, hentry, _, hvalue⟩
    exact ⟨entry, hentry, hvalue⟩
  . contradiction

namespace Confined

section Answers

variable {d : Draw} {tokenHash : String} (h : Confined cfg log s)
include h

theorem get_text {text : String}
    (hget : (CacheOp.exec d s (.get (ServiceTokenVerifier.cacheKey tokenHash))).1 = some text)
    (htext : Project.parse text = some .aspectus) : Seeded cfg log tokenHash := by
  rcases get_some hget with ⟨entry, hentry, hvalue⟩
  apply h.cached tokenHash entry hentry
  rw [hvalue, ← Project.toString_of_parse htext]

theorem findByHash_token {token : StoredServiceToken}
    (hfind : (ServiceTokenOp.exec cfg d s (.findByHash tokenHash)).1 = .ok (some token))
    (hproject : token.project = .aspectus) : Seeded cfg log tokenHash := by
  rcases findServiceTokenByHash_ok (query_ok hfind) with ⟨row, hrow, hhash, _⟩
  rw [hproject] at hrow
  rw [← hhash]
  exact h.row row hrow

/--
Only seeded tokens are verified as admin tokens.
-/
theorem verify {token : String} {draws : Nat → Draw × Elsewhere}
    (hverify : ((ServiceTokenVerifier.verify cfg token).run (surroundedSemantics cfg) draws s).1
      = some Project.aspectus) : Seeded cfg log (cfg.sha256Text token) := by
  have hread := h.write (draws 0).2
  have hget' : (surroundedSemantics cfg).exec (.cache (.get (ServiceTokenVerifier.cacheKey
      (cfg.sha256Text token)))) (draws 0) s = ((CacheOp.exec (draws 0).1 ((draws 0).2.write s) (.get
        (ServiceTokenVerifier.cacheKey (cfg.sha256Text token)))).1, (draws 0).2.write s) := by
    change CacheOp.exec (draws 0).1 ((draws 0).2.write s) (.get _) = _
    unfold CacheOp.exec
    dsimp only
    split
    . rfl
    . rfl
  have hfind' : ∀ s, ((surroundedSemantics cfg).exec (.serviceToken (.findByHash
      (cfg.sha256Text token))) (draws 1) s).1 = (ServiceTokenOp.exec cfg (draws 1).1
        ((draws 1).2.write s) (.findByHash (cfg.sha256Text token))).1 := fun _ => rfl
  unfold ServiceTokenVerifier.verify App.cache App.serviceToken at hverify
  dsimp only at hverify
  rw [run_perform_bind, hget'] at hverify
  cases hget : (CacheOp.exec (draws 0).1 ((draws 0).2.write s) (.get (ServiceTokenVerifier.cacheKey
      (cfg.sha256Text token)))).1 with
  | some text =>
    rw [hget] at hverify
    exact hread.get_text hget hverify
  | none =>
    rw [hget] at hverify
    dsimp only at hverify
    rw [run_perform_bind] at hverify
    rw [hfind'] at hverify
    rcases hfind : (ServiceTokenOp.exec cfg (draws 1).1 ((draws 1).2.write ((draws 0).2.write s))
      (.findByHash (cfg.sha256Text token))).1 with e | _ | stored
    . rw [hfind] at hverify
      contradiction
    . rw [hfind] at hverify
      contradiction
    . rw [hfind] at hverify
      dsimp only at hverify
      apply (hread.write (draws 1).2).findByHash_token hfind
      unfold ServiceTokenVerifier.verifyStored at hverify
      split at hverify
      . contradiction
      . split at hverify
        . contradiction
        . injection hverify

end Answers

variable (hpre : ∀ e ∈ log, Confined cfg log e.pre)
  (hsound : ∀ e ∈ log, Entry.Sound (surroundedSemantics cfg) e) {i : Nat} {tokenHash : String}
include hpre hsound

theorem found {token : StoredServiceToken} (h : Found (eventsOf i log) tokenHash token)
    (hproject : token.project = .aspectus) : Seeded cfg log tokenHash := by
  rcases mem_eventsOf.mp h.called with ⟨e, he, _, d, hw⟩
  exact ((hpre e he).write d.2).findByHash_token (hsound e he _ d hw).symm hproject

/--
A hash that the events of a verification vouch for is seeded.
-/
theorem vouches (h : Vouches (eventsOf i log) tokenHash .aspectus) : Seeded cfg log tokenHash := by
  rcases h with hcached | ⟨token, hfound, hproject⟩
  . rcases mem_eventsOf.mp hcached with ⟨e, he, _, d, hw⟩
    exact ((hpre e he).write d.2).get_text (hsound e he _ d hw).symm (Project.parse_toString _)
  . exact found hpre hsound hfound hproject

end Confined

/--
In every execution only seeded tokens are ever stored or cached as admin tokens.
-/
theorem Deployment.Reachable.confined {m : Deployment} (h : Deployment.Reachable cfg s m)
    (hs : Confined cfg [] s)
    : Confined cfg m.log m.store ∧ ∀ e ∈ m.log, Confined cfg m.log e.pre := by
  refine h.inv (P := fun m => Confined cfg m.log m.store ∧ ∀ e ∈ m.log, Confined cfg m.log e.pre)
    ⟨hs, fun e he => absurd he List.not_mem_nil⟩ ?_
  intro m m' hm ih hchange
  have hlog : ∀ e : DeploymentEntry, e.pre = m.store →
      ∀ e' ∈ e :: m.log, Confined cfg (e :: m.log) e'.pre := by
    intro e hpre e' he'
    rcases List.mem_cons.mp he' with rfl | he'
    . rw [hpre]
      exact ih.1.cons _
    . exact (ih.2 e' he').cons _
  cases hchange with
  | none => exact ih
  | tick n => exact ⟨⟨ih.1.row, ih.1.cached⟩, ih.2⟩
  | start i q hfree => exact ⟨ih.1.cons _, hlog _ rfl⟩
  | finish i q a hrun => exact ⟨ih.1.cons _, hlog _ rfl⟩
  | call i d q o k hrun =>
    refine ⟨Confined.cons ?_ _, hlog _ rfl⟩
    exact (ih.1.write d.2).exec (hm.served.started i _ hrun)
      (hm.conforms (Call.handle_conforms cfg) i q _ hrun).1.write
      (fun tokenHash token => Confined.found ih.2 hm.sound) d.1

/--
The request was let in by the layers: something was done that they do not do themselves, or it was not
refused.
-/
def Passed (e : DeploymentEntry) : Prop :=
  (∃ ev d, e.what = .call ev d ∧ ev.op.isGate = false)
    ∨ ∃ a, e.what = .finish a ∧ a.status ≠ 401 ∧ a.status ≠ 403

/--
The service tokens that pass as the admin token are the ones the service was started with: a management
request is only let in with one of them, and no other token is verified as one.
-/
theorem admin_confinement (cfg : Config) (s : Server)
    (hrow : s.serviceTokens.lookup Project.aspectus.toString = none)
    (hcache : ∀ tokenHash entry, s.redis (ServiceTokenVerifier.cacheKey tokenHash) = some entry →
      entry.value ≠ .text Project.aspectus.toString) (m : Deployment)
    (hm : Deployment.Reachable cfg s m) :
    (∀ e rest, e :: rest <:+ m.log → Passed e →
      ∀ path authorization address endpoint,
        Started rest e.thread (.request path authorization address endpoint) →
        endpoint.layer = .management →
        ∃ token, bearerToken authorization = some token ∧ Seeded cfg rest (cfg.sha256Text token))
    ∧ (∀ token draws,
        ((ServiceTokenVerifier.verify cfg token).run (surroundedSemantics cfg) draws m.store).1
          = some Project.aspectus →
        Seeded cfg m.log (cfg.sha256Text token)) := by
  have hs : Confined cfg [] s := by
    constructor
    . intro row hrow'
      rw [hrow] at hrow'
      contradiction
    . intro tokenHash entry hentry hvalue
      exact absurd hvalue (hcache tokenHash entry hentry)
  constructor
  . intro e rest he hpassed path authorization address endpoint hstart hlayer
    rcases hm.split he with ⟨m₁, m₂, hm₁, hlog₁, _⟩
    have hletIn : LetIn cfg (.request path authorization address endpoint)
        (eventsOf e.thread rest) := by
      rcases hpassed with ⟨ev, d, hw, hgate⟩ | ⟨a, hw, hne⟩
      . rcases hm.called (Call.handle_conforms cfg) he hw with ⟨call, hcall, hallowed⟩
        have := hm₁.started_unique (hlog₁ ▸ hcall) (hlog₁ ▸ hstart)
        subst this
        rcases hallowed.gate with hgate' | hletIn
        . rw [hgate] at hgate'
          contradiction
        . exact hletIn
      . rcases hm.finished (Call.handle_conforms cfg) he hw with ⟨call, hcall, hanswered⟩
        have := hm₁.started_unique (hlog₁ ▸ hcall) (hlog₁ ▸ hstart)
        subst this
        rcases hanswered with hstatus | hstatus | hletIn
        . exact absurd hstatus hne.1
        . exact absurd hstatus hne.2
        . exact hletIn
    unfold LetIn at hletIn
    simp only [hlayer] at hletIn
    rcases hletIn with ⟨token, htoken, hvouches⟩
    refine ⟨token, htoken, ?_⟩
    rw [← hlog₁] at hvouches ⊢
    exact Confined.vouches (Deployment.Reachable.confined hm₁ hs).2 hm₁.sound hvouches
  . intro token draws hverify
    exact (Deployment.Reachable.confined hm hs).1.verify hverify

namespace Sample

def adminToken : String :=
  "st_admin-secret"

def adminSha256 (bytes : List UInt8) : String :=
  if bytes = utf8 adminToken then
    "508cf244629b8ff673cf61b6aa769ffec6bad00e24c273de22356a3bf94ab59f"
  else
    sha256 bytes

def adminConfig : Config :=
  { config with sha256 := adminSha256 }

/--
Nothing happens elsewhere.
-/
def nothing : Elsewhere where
  write s := s
  now _ := rfl
  serviceTokens _ := rfl
  redis _ _ _ h := .inl h

/--
The service after it was started.
-/
def deployed : Deployment :=
  runs (surroundedSemantics adminConfig) (Call.handle adminConfig) (init server)
    [.start 0 (.startUp (some adminToken)), .step 0 (draw 1, nothing), .step 0 (draw 1, nothing)]

theorem deployed_reachable : Deployment.Reachable adminConfig server deployed :=
  reaches_runs _ _

end Sample

open Sample in
/--
The admin token is verified as one after the service was started with it.
-/
theorem admin_confinement_seeded :
    ((ServiceTokenVerifier.verify adminConfig adminToken).run (surroundedSemantics adminConfig)
        (fun _ => (draw 2, nothing)) deployed.store).1 = some Project.aspectus
      ∧ Seeded adminConfig deployed.log (adminConfig.sha256Text adminToken) := by
  have hverify : ((ServiceTokenVerifier.verify adminConfig adminToken).run
      (surroundedSemantics adminConfig) (fun _ => (draw 2, nothing)) deployed.store).1
        = some Project.aspectus := by
    decide +kernel
  exact ⟨hverify, (admin_confinement adminConfig server (by decide) (fun _ _ h => by cases h) deployed
    deployed_reachable).2 adminToken (fun _ => (draw 2, nothing)) hverify⟩

end Aspectus
