import Aspectus.Security.Admin
import Aspectus.Security.DenyList

/-!
This module contains that nobody can have a JWT denied: no text that is presented as a token to be
revoked enters the deny-list, and a valid token is active until it expires.
-/

namespace Aspectus

open Interaction Prog Machine

variable {cfg : Config} {payload : String → Option JwtClaims} {signed : String → Bool} {s : Server}

section Revocation

/--
The operations that do not concern the cache.
-/
def Op.isUncached : Op → Bool
  | .cache _ => false
  | _ => true

/--
A program that leaves the cache alone.
-/
abbrev Uncached {α : Type} (p : App α) : Prop :=
  p.Uses fun (o : Op) => o.isUncached = true

theorem uncached_perform_bind {α : Type} {o : Op} {f : o.Res → App α} (ho : o.isUncached = true)
    (hf : ∀ r, Uncached (f r)) : Uncached (perform (S := Api) o >>= f) :=
  uses_perform_bind ho hf

theorem Uncached.redis {p : App Response} (hp : Uncached p) (draws : Nat → Draw) (s : Server) :
    (p.run (semantics cfg) draws s).2.2.redis = s.redis := by
  refine Uses.run_keeps hp (P := fun s' : Server => s'.redis = s.redis) ?_ rfl
  intro o d s' ho hs'
  rw [← hs']
  apply (o.exec_framed cfg d s').redis
  rintro o' rfl
  contradiction

theorem revoke_uncached (hjwt : DecodesJwt cfg payload signed) (token : String) :
    Uncached (JwtVerifier.revoke cfg token) := by
  refine jwtRevoke_uses rfl ?_
  rintro key ttl ⟨now, token', claims, hdecode, _⟩
  rw [hjwt.revokeValidation] at hdecode
  contradiction

theorem revokeToken_uncached (hjwt : DecodesJwt cfg payload signed) (token : Option String) :
    Uncached (revokeToken cfg token) := by
  unfold revokeToken
  dsimp only
  split
  . trivial
  . split
    . exact Uses.bind (revoke_uncached hjwt _) fun _ => trivial
    . split
      . trivial
      . apply uncached_perform_bind rfl
        rintro (e | _ | key)
        . trivial
        . trivial
        . exact uncached_perform_bind rfl fun _ => trivial

theorem logout_uncached (hjwt : DecodesJwt cfg payload signed) (req : LogoutRequest) :
    Uncached (logout cfg req) := by
  unfold logout
  apply uncached_perform_bind rfl
  intro rotated
  split
  . split
    . exact Uses.bind (revoke_uncached hjwt _) fun _ => trivial
    . trivial
  . trivial

end Revocation

section Introspection

variable {call : Call} {h : List (Event Api)} {token : String}

/--
The events of a verification say why a JWT was rejected: it is not decoded, or it was found in the
deny-list.
-/
def Rejected (cfg : Config) (token : String) (h : List (Event Api)) : Prop :=
  ∃ now, Called h (.host .now) now
    ∧ (cfg.decodeJwt (JwtVerifier.verifyValidation cfg) now token = none
      ∨ ∃ claims text, cfg.decodeJwt (JwtVerifier.verifyValidation cfg) now token = some claims
        ∧ Called h (.cache (.get (JwtVerifier.revokedKey claims.jti))) (some text))

/--
If a JWT is answered to be inactive, then it was rejected.
-/
def JwtAnswered (cfg : Config) (call : Call) (h : List (Event Api)) (a : Response) : Prop :=
  ∀ path authorization address token r,
    call = .request path authorization address (.key (.introspect token)) →
    startsWith token "eyJ" = true → a.body = .introspection r → r.active = false →
    Rejected cfg token h

theorem verify_rejects (token : String) :
    (JwtVerifier.verify cfg token).Conforms (fun _ _ => True)
      (fun h r => r.active = false → Rejected cfg token h) h := by
  unfold JwtVerifier.verify
  apply conforms_perform_bind trivial
  intro now
  split
  . next hdecode => exact fun _ => ⟨now, Called.head _ _ _, .inl hdecode⟩
  . next claims hdecode =>
    apply conforms_perform_bind trivial
    rintro (_ | text)
    . nofun
    . intro _
      exact ⟨now, (Called.head _ _ _).cons _, .inr ⟨claims, text, hdecode, Called.head _ _ _⟩⟩

theorem addScope_active (response : IntrospectResponse) :
    (introspect.addScope response).Conforms (fun _ _ => True)
      (fun _ r => r.active = response.active) h := by
  unfold introspect.addScope
  split
  . apply Conforms.bind (Q := fun _ _ => True) (conforms_of_append _ fun _ _ => trivial)
    intro new scope _
    exact rfl
  . exact rfl

theorem addQuotas_active (response : IntrospectResponse) :
    (introspect.addQuotas response).Conforms (fun _ _ => True)
      (fun _ r => r.active = response.active) h := by
  unfold introspect.addQuotas
  split
  . exact rfl
  . apply conforms_perform_bind trivial
    intro tenant
    split
    . split
      . exact rfl
      . exact rfl
    . exact rfl

theorem introspect_rejects (htoken : startsWith token "eyJ" = true) :
    (introspect cfg token).Conforms (fun _ _ => True)
      (fun h a => ∀ r, a.body = .introspection r → r.active = false → Rejected cfg token h) h := by
  unfold introspect TokenVerifier.verify
  rw [if_pos htoken]
  apply (verify_rejects token).bind
  intro new response hresponse
  split
  . next hactive =>
    apply (addScope_active response).bind
    intro new' response' hscope
    apply (addQuotas_active response').bind
    rintro new'' response'' hquotas r hbody hinactive
    injection hbody with hbody
    subst hbody
    rw [hquotas, hscope, hactive] at hinactive
    contradiction
  . intro r hbody hinactive
    injection hbody with hbody
    subst hbody
    exact hresponse hinactive

/--
The layers only add answers of their own.
-/
theorem consumer_conforms {post : List (Event Api) → Response → Prop} {path key : String}
    {authorization : Option String} {limiter : RateLimiter} {next : App Response}
    (hrefused : ∀ h detail, post h (invalidServiceToken detail path))
    (hlimited : ∀ h, post h RateLimiter.rateLimited)
    (hnext : ∀ h, next.Conforms (fun _ _ => True) post h)
    : (serviceTokenAuth cfg path authorization fun _ => limiter.layer key next).Conforms
        (fun _ _ => True) post h := by
  unfold serviceTokenAuth
  split
  . exact hrefused _ _
  . next token _ =>
    apply Conforms.bind (Q := fun _ _ => True) (conforms_of_append _ fun _ _ => trivial)
    rintro verified (_ | project) _
    . exact hrefused _ _
    . unfold RateLimiter.layer
      apply Conforms.bind (Q := fun _ _ => True) (conforms_of_append _ fun _ _ => trivial)
      intro counted allowed _
      split
      . exact hnext _
      . exact hlimited _

/--
Every call answers JWTs this way.
-/
theorem Call.handle_rejects (cfg : Config) (call : Call) :
    (call.handle cfg).Conforms (fun _ _ => True) (JwtAnswered cfg call) [] := by
  by_cases hcall : ∃ path authorization address token,
      call = .request path authorization address (.key (.introspect token))
  . rcases hcall with ⟨path, authorization, address, token, rfl⟩
    apply consumer_conforms
    . rintro h detail path' authorization' address' token' r _ _ hbody
      injection hbody
    . rintro h path' authorization' address' token' r _ _ hbody
      injection hbody
    . intro h
      by_cases htoken : startsWith token "eyJ" = true
      . apply (introspect_rejects htoken).mono (fun _ _ ho => ho)
        intro new a ha path' authorization' address' token' r heq _ hbody hinactive
        cases heq
        exact ha r hbody hinactive
      . apply conforms_of_append
        intro new a path' authorization' address' token' r heq htoken'
        cases heq
        exact absurd htoken' htoken
  . apply conforms_of_append
    intro new a path authorization address token r heq
    exact absurd ⟨path, authorization, address, token, heq⟩ hcall

end Introspection

section Executions

variable {jti : String}

/--
An operation that is allowed denies nothing.
-/
theorem undenied_exec (hjwt : DecodesJwt cfg payload signed) {call : Call} {h : List (Event Api)}
    {o : Op} (hwrite : MayWrite cfg call h o) (d : Draw)
    (hs : s.redis (JwtVerifier.revokedKey jti) = none)
    : (o.exec cfg d s).2.redis (JwtVerifier.revokedKey jti) = none := by
  by_contra hsome
  rcases Option.ne_none_iff_exists'.mp hsome with ⟨entry, hentry⟩
  rcases o.exec_redis cfg d s _ _ hentry with
    hold | ⟨value, ttl, rfl, _⟩ | ⟨value, ttl, rfl, _⟩ | ⟨name, bucket, n, hkey, _⟩
  . rw [hs] at hold
    contradiction
  . rcases hwrite with ⟨keyHash, hkey⟩
    exact append_ne_append (by decide) (by decide) _ _ hkey
  . rcases hwrite with ⟨userId, hkey⟩ | ⟨now, token, claims, hdecode, _⟩ | ⟨_, _, hkey, _⟩
    . exact append_ne_append (by decide) (by decide) _ _ hkey
    . rw [hjwt.revokeValidation] at hdecode
      contradiction
    . exact append_ne_append (by decide) (by decide) _ _ hkey
  . unfold rateLimitKey at hkey
    rw [String.append_assoc, String.append_assoc] at hkey
    exact append_ne_append (by decide) (by decide) _ _ hkey

theorem undenied_write (w : Elsewhere) (hs : s.redis (JwtVerifier.revokedKey jti) = none)
    : (w.write s).redis (JwtVerifier.revokedKey jti) = none := by
  by_contra hsome
  rcases Option.ne_none_iff_exists'.mp hsome with ⟨entry, hentry⟩
  rcases w.redis s _ entry hentry with hold | ⟨userId, hkey⟩ | ⟨name, bucket, hkey⟩
  . rw [hs] at hold
    contradiction
  . exact append_ne_append (by decide) (by decide) _ _ hkey
  . unfold rateLimitKey at hkey
    rw [String.append_assoc, String.append_assoc] at hkey
    exact append_ne_append (by decide) (by decide) _ _ hkey

/--
In no execution anything is entered into the deny-list.
-/
theorem Deployment.Reachable.undenied (hjwt : DecodesJwt cfg payload signed) {m : Deployment}
    (hm : Deployment.Reachable cfg s m) (hs : s.redis (JwtVerifier.revokedKey jti) = none)
    : m.store.redis (JwtVerifier.revokedKey jti) = none
        ∧ ∀ e ∈ m.log, e.pre.redis (JwtVerifier.revokedKey jti) = none := by
  have hpost : ∀ (m : Deployment) e rest, Deployment.Reachable cfg s m → e :: rest <:+ m.log →
      e.pre.redis (JwtVerifier.revokedKey jti) = none →
      (e.post (surroundedSemantics cfg)).redis (JwtVerifier.revokedKey jti) = none := by
    intro m e rest hm he hpre
    rcases e.post_cases (surroundedSemantics cfg) with hpost | ⟨ev, d, hw, hpost⟩
    . rw [hpost]
      exact hpre
    . rw [hpost]
      rcases hm.called (Call.handle_conforms cfg) he hw with ⟨call, _, hallowed⟩
      exact undenied_exec hjwt hallowed.write d.1 (undenied_write d.2 hpre)
  constructor
  . exact hm.store_inv (P := fun s : Server => s.redis (JwtVerifier.revokedKey jti) = none)
      (fun _ _ h => h) hs hpost
  . intro e he
    exact hm.pre_inv (P := fun s : Server => s.redis (JwtVerifier.revokedKey jti) = none)
      (fun _ _ h => h) hs hpost he

/--
The clock never goes back.
-/
theorem clock_evolution (cfg : Config) :
    Evolution (surroundedSemantics cfg) fun s s' => s.now ≤ s'.now where
  refl s := Int.le_refl s.now
  trans h h' := Int.le_trans h h'
  exec o d s := by
    have hnow : ((surroundedSemantics cfg).exec o d s).2.now = s.now :=
      ((o.exec_framed cfg d.1 (d.2.write s)).now).trans (d.2.now s)
    exact Int.le_of_eq hnow.symm
  advance n s := Int.le_add_of_nonneg_right (Int.natCast_nonneg n)

variable {token : String} {claims : JwtClaims}

/--
A valid token that is not denied is verified as active.
-/
theorem verify_active (hjwt : DecodesJwt cfg payload signed) (hpayload : payload token = some claims)
    (hsigned : signed token = true) (hiss : claims.iss = "https://aspectus")
    (hexp : s.now.timestamp ≤ claims.exp)
    (hdeny : s.redis (JwtVerifier.revokedKey claims.jti) = none) (draws : Nat → Draw × Elsewhere)
    : ((JwtVerifier.verify cfg token).run (surroundedSemantics cfg) draws s).1.active = true := by
  have hnow : (surroundedSemantics cfg).exec (.host .now) (draws 0) s
      = (s.now, (draws 0).2.write s) :=
    Prod.ext ((draws 0).2.now s) rfl
  have hget : ((surroundedSemantics cfg).exec (.cache (.get (JwtVerifier.revokedKey claims.jti)))
      (draws 1) ((draws 0).2.write s)).1 = (none : Option String) := by
    have hnone := undenied_write (draws 1).2 (undenied_write (draws 0).2 hdeny)
    change (CacheOp.exec (draws 1).1 _ (.get _)).1 = none
    by_contra hsome
    rcases Option.ne_none_iff_exists'.mp hsome with ⟨text, htext⟩
    rcases get_some htext with ⟨entry, hentry, _⟩
    rw [hnone] at hentry
    contradiction
  unfold JwtVerifier.verify App.host App.cache
  rw [run_perform_bind, hnow]
  dsimp only
  rw [hjwt.verifyValidation hpayload hsigned hiss hexp]
  dsimp only
  rw [run_perform_bind, hget]
  rfl

/--
A valid token that is answered to be inactive has expired, if nothing was denied.
-/
theorem Deployment.Reachable.introspected (hjwt : DecodesJwt cfg payload signed) {m : Deployment}
    (hm : Deployment.Reachable cfg s m) (hdeny : s.redis (JwtVerifier.revokedKey claims.jti) = none)
    (hpayload : payload token = some claims) (hsigned : signed token = true)
    (hiss : claims.iss = "https://aspectus") (htoken : startsWith token "eyJ" = true)
    {e : DeploymentEntry} {rest : List DeploymentEntry} (he : e :: rest <:+ m.log)
    {path address : String} {authorization : Option String} {status : Nat} {r : IntrospectResponse}
    (hstart : Started rest e.thread (.request path authorization address (.key (.introspect token))))
    (hw : e.what = .finish ⟨status, .introspection r⟩) (hexp : e.pre.now.timestamp ≤ claims.exp)
    : r.active = true := by
  by_contra hinactive
  rcases hm.split he with ⟨m₁, _, hm₁, hlog₁, _⟩
  rcases hm.finished (Call.handle_rejects cfg) he hw with ⟨call, hcall, hanswered⟩
  have := hm₁.started_unique (hlog₁ ▸ hcall) (hlog₁ ▸ hstart)
  subst this
  rcases hanswered path authorization address token r rfl htoken rfl (by simpa using hinactive) with
    ⟨now, hnow, hrejected⟩
  have hdecode : cfg.decodeJwt (JwtVerifier.verifyValidation cfg) now token = some claims := by
    -- The clock was read before the answer.
    rcases mem_eventsOf.mp hnow with ⟨e', he', _, d, hw'⟩
    have hread : now = (d.2.write e'.pre).now :=
      hm.sound e' (he.mem (List.mem_cons_of_mem _ he')) _ d hw'
    rw [d.2.now] at hread
    have hle := (clock_evolution cfg).between hm he he'
    have hle' := (clock_evolution cfg).post e'
    have htimestamp : now.timestamp ≤ e.pre.now.timestamp := by
      rw [hread]
      exact Int.ediv_le_ediv (by decide) (Int.le_trans hle' hle)
    exact hjwt.verifyValidation hpayload hsigned hiss (Int.le_trans htimestamp hexp)
  rcases hrejected with hnone | ⟨claims', text, hsome, hget⟩
  . rw [hdecode] at hnone
    contradiction
  . rw [hdecode] at hsome
    injection hsome with hsome
    subst hsome
    rcases mem_eventsOf.mp hget with ⟨e', he', _, d, hw'⟩
    have hmem : e' ∈ m.log := he.mem (List.mem_cons_of_mem _ he')
    rcases get_some (hm.sound e' hmem _ d hw').symm with ⟨entry, hentry, _⟩
    rw [undenied_write d.2 ((Deployment.Reachable.undenied hjwt hm hdeny).2 e' hmem)] at hentry
    contradiction

end Executions

/--
No text that is presented to a revocation or a logout changes the deny-list, and no valid token is ever
reported to be inactive before it expires.
-/
theorem valid_jwt_never_denied (cfg : Config) (payload : String → Option JwtClaims)
    (signed : String → Bool) (hjwt : DecodesJwt cfg payload signed) :
    (∀ (s : Server) (draws : Nat → Draw) (token refreshToken : String),
      ((revokeToken cfg (some token)).run (semantics cfg) draws s).2.2.redis = s.redis
      ∧ ((logout cfg ⟨refreshToken, some token⟩).run (semantics cfg) draws s).2.2.redis = s.redis)
    ∧ (∀ (s : Server) (m : Deployment) (token : String) (claims : JwtClaims),
      Deployment.Reachable cfg s m → payload token = some claims → signed token = true →
      claims.iss = "https://aspectus" → s.redis (JwtVerifier.revokedKey claims.jti) = none →
      (∀ draws, m.store.now.timestamp ≤ claims.exp →
        ((JwtVerifier.verify cfg token).run (surroundedSemantics cfg) draws m.store).1.active = true)
      ∧ (startsWith token "eyJ" = true →
        ∀ e rest path authorization address status r, e :: rest <:+ m.log →
          Started rest e.thread (.request path authorization address (.key (.introspect token))) →
          e.what = .finish ⟨status, .introspection r⟩ → e.pre.now.timestamp ≤ claims.exp →
          r.active = true)) := by
  constructor
  . intro s draws token refreshToken
    constructor
    . exact Uncached.redis (revokeToken_uncached hjwt (some token)) draws s
    . exact Uncached.redis (logout_uncached hjwt ⟨refreshToken, some token⟩) draws s
  . intro s m token claims hm hpayload hsigned hiss hdeny
    constructor
    . intro draws hexp
      exact verify_active hjwt hpayload hsigned hiss hexp
        (Deployment.Reachable.undenied hjwt hm hdeny).1 draws
    . intro htoken e rest path authorization address status r he hstart hw hexp
      exact Deployment.Reachable.introspected hjwt hm hdeny hpayload hsigned hiss htoken he hstart hw
        hexp

namespace Sample

def introspectionConfig : Config :=
  { jwtConfig with sha256 := adminSha256 }

/--
The service before a JWT is introspected.
-/
def awaitingJwt : Deployment :=
  runs (surroundedSemantics introspectionConfig) (Call.handle introspectionConfig) (init server)
    [.start 0 (.startUp (some adminToken)), .step 0 (draw 1, nothing), .step 0 (draw 1, nothing)]

def jwtIntrospection : Call :=
  .request "/introspect" (some ("Bearer " ++ adminToken)) "192.0.2.1" (.key (.introspect jwt))

def jwtIntrospected : Deployment :=
  runs (surroundedSemantics introspectionConfig) (Call.handle introspectionConfig) awaitingJwt
    (.start 1 jwtIntrospection :: List.replicate 12 (.step 1 (draw 2, nothing)))

/--
The newest entry is an answer that was given before the JWT expired.
-/
def answersInTime : List DeploymentEntry → Bool
  | ⟨1, s, .finish ⟨200, .introspection _⟩⟩ :: _ => decide (s.now.timestamp ≤ jwtClaims.exp)
  | _ => false

end Sample

open Sample in
theorem valid_jwt_never_denied_sample :
    ((revokeToken introspectionConfig (some jwt)).run (semantics introspectionConfig)
        (fun _ => draw 1) server).2.2.redis = server.redis
      ∧ ∃ e ∈ jwtIntrospected.log, ∃ r, e.what = .finish ⟨200, .introspection r⟩
        ∧ r.active = true := by
  have hnever := valid_jwt_never_denied introspectionConfig payload signed fun _ _ _ => rfl
  refine ⟨(hnever.1 server (fun _ => draw 1) jwt "").1, ?_⟩
  have hchecks : answersInTime jwtIntrospected.log = true
      ∧ (awaitingJwt.threads 1).isNone = true := by
    decide +kernel
  rcases hchecks with ⟨hanswers, hfree⟩
  have hreachable : Deployment.Reachable introspectionConfig server jwtIntrospected :=
    (reaches_runs _ _).trans (reaches_runs _ _)
  have hstart : ⟨1, awaitingJwt.store, .start jwtIntrospection⟩ :: awaitingJwt.log
      <:+ jwtIntrospected.log :=
    runs_start (Option.isNone_iff_eq_none.mp hfree) _ _
  generalize hlog : jwtIntrospected.log = log at hanswers hstart
  unfold answersInTime at hanswers
  split at hanswers
  . next s r rest =>
    refine ⟨_, List.mem_cons_self, r, rfl, ?_⟩
    have hstarted : Started rest 1 jwtIntrospection := by
      have hmem := hstart.mem List.mem_cons_self
      refine ⟨_, (List.mem_cons.mp hmem).resolve_left ?_, rfl, rfl⟩
      nofun
    exact (hnever.2 server jwtIntrospected jwt jwtClaims hreachable rfl (by decide) rfl rfl).2
      (by decide) ⟨1, s, .finish ⟨200, .introspection r⟩⟩ rest "/introspect" _ "192.0.2.1" 200 r
      (hlog ▸ List.suffix_refl _) hstarted rfl (of_decide_eq_true hanswers)
  . contradiction

end Aspectus
