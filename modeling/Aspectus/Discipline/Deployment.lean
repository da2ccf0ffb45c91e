import Aspectus.Discipline.Basic

/-!
This module contains the discipline that the deployed service follows: a service token is only cached
for the project it was found for, and a management request is only served once its service token was
found to be the admin token.
-/

namespace Aspectus

open Interaction Prog

/--
What is written to the cache is an answer to an introspection, the scopes of a user, or the revocation
of a JWT, and the admin token is not written at all.
-/
def Op.Tame (cfg : Config) : Op → Prop
  | .cache (.setJson k _ _) => ∃ keyHash, k = ApiKeyVerifier.cacheKey keyHash
  | .cache (.set k _ _) => (∃ userId, k = ScopeExpander.cacheKey userId) ∨ Denies cfg k
  | .serviceToken (.upsert project _ _) => project ≠ .aspectus
  | .serviceToken (.seedAdmin _) => False
  | _ => True

/--
A program whose operations are tame.
-/
abbrev Tame {α : Type} (cfg : Config) (p : App α) : Prop :=
  p.Uses (Op.Tame cfg)

/--
The hash was found to be the one of the active token.
-/
structure Found (h : List (Event Api)) (tokenHash : String) (token : StoredServiceToken) : Prop where
  called : Called h (.serviceToken (.findByHash tokenHash)) (.ok (some token))
  hash : token.tokenHash = tokenHash
  active : token.isActive = true

/--
The events of a verification vouch for the token of the project with this hash: it was found in the
cache, or to be active in the database.
-/
def Vouches (h : List (Event Api)) (tokenHash : String) (project : Project) : Prop :=
  Called h (.cache (.get (ServiceTokenVerifier.cacheKey tokenHash))) (some project.toString)
    ∨ ∃ token, Found h tokenHash token ∧ token.project = project

/--
A request with this header was found to carry the admin token.
-/
def Admitted (cfg : Config) (authorization : Option String) (h : List (Event Api)) : Prop :=
  ∃ token, bearerToken authorization = some token ∧ Vouches h (cfg.sha256Text token) .aspectus

/--
The layers have let the request in.
-/
def LetIn (cfg : Config) (call : Call) (h : List (Event Api)) : Prop :=
  match call with
  | .startUp _ => True
  | .request _ authorization _ endpoint =>
    match endpoint.layer with
    | .management => Admitted cfg authorization h
    | _ => True

/--
What may be written to the cache and to the rows of service tokens.
-/
def MayWrite (cfg : Config) (call : Call) (h : List (Event Api)) : Op → Prop
  | .cache (.setJson key _ _) => ∃ keyHash, key = ApiKeyVerifier.cacheKey keyHash
  | .cache (.set key value _) =>
    (∃ userId, key = ScopeExpander.cacheKey userId) ∨ Denies cfg key
      ∨ ∃ tokenHash token, key = ServiceTokenVerifier.cacheKey tokenHash ∧ Found h tokenHash token
        ∧ value = token.project.toString
  | .serviceToken (.upsert project _ _) => project ≠ .aspectus
  | .serviceToken (.seedAdmin tokenHash) =>
    ∃ adminToken, call = .startUp (some adminToken) ∧ adminToken ≠ ""
      ∧ tokenHash = cfg.sha256Text adminToken
  | _ => True

/--
The operations of the layers themselves.
-/
def Op.isGate : Op → Bool
  | .cache (.get _) => true
  | .cache (.set ..) => true
  | .serviceToken (.findByHash _) => true
  | _ => false

/--
What a call may do after the events `h`.
-/
structure CallAllowed (cfg : Config) (call : Call) (h : List (Event Api)) (o : Op) : Prop where
  write : MayWrite cfg call h o
  gate : o.isGate = true ∨ LetIn cfg call h

/--
What a call may be answered after the events `h`: what was not let in is refused.
-/
def CallAnswered (cfg : Config) (call : Call) (h : List (Event Api)) (a : Response) : Prop :=
  a.status = 401 ∨ a.status = 403 ∨ LetIn cfg call h

variable {cfg : Config} {call : Call} {h : List (Event Api)}

theorem Found.append {tokenHash : String} {token : StoredServiceToken} (hf : Found h tokenHash token)
    (new : List (Event Api)) : Found (new ++ h) tokenHash token :=
  ⟨hf.called.append new, hf.hash, hf.active⟩

theorem Vouches.append {tokenHash : String} {project : Project} (hv : Vouches h tokenHash project)
    (new : List (Event Api)) : Vouches (new ++ h) tokenHash project := by
  rcases hv with hcached | ⟨token, hfound, hproject⟩
  . exact .inl (hcached.append new)
  . exact .inr ⟨token, hfound.append new, hproject⟩

theorem Admitted.append {authorization : Option String} (ha : Admitted cfg authorization h)
    (new : List (Event Api)) : Admitted cfg authorization (new ++ h) := by
  rcases ha with ⟨token, htoken, hvouches⟩
  exact ⟨token, htoken, hvouches.append new⟩

theorem LetIn.append (hl : LetIn cfg call h) (new : List (Event Api)) : LetIn cfg call (new ++ h) := by
  cases call with
  | startUp adminToken => trivial
  | request path authorization address endpoint =>
    unfold LetIn at hl ⊢
    dsimp only at hl ⊢
    split at hl
    . exact hl.append new
    . trivial

theorem MayWrite.of_tame {o : Op} (ho : o.Tame cfg) : MayWrite cfg call h o := by
  unfold MayWrite
  split
  . exact ho
  . rcases ho with hscope | hdenies
    . exact .inl hscope
    . exact .inr (.inl hdenies)
  . exact ho
  . exact absurd ho id
  . trivial

/--
Whatever is done after the call was let in is allowed if it may be written.
-/
theorem conforms_of_letIn {p : App Response} (hl : LetIn cfg call h)
    (hp : p.Conforms (MayWrite cfg call) (fun _ _ => True) h)
    : p.Conforms (CallAllowed cfg call) (CallAnswered cfg call) h :=
  hp.mono (fun new _ ho => ⟨ho, .inr (hl.append new)⟩) fun new _ _ => .inr (.inr (hl.append new))

theorem Tame.conforms {p : App Response} (hp : Tame cfg p) :
    p.Conforms (MayWrite cfg call) (fun _ _ => True) h :=
  Uses.conforms hp (fun _ _ ho => .of_tame ho) fun _ _ => trivial

section Tame

theorem AuthRequest.handle_tame (q : AuthRequest) : Tame cfg (q.handle cfg) := by
  refine q.handle_calls.mono fun o ho => ?_
  unfold Op.Tame
  split
  . exact ho.elim
  . exact ho
  . exact ho.elim
  . exact ho.elim
  . trivial

theorem KeyRequest.handle_tame (q : KeyRequest) : Tame cfg (q.handle cfg) := by
  refine q.handle_calls.mono fun o ho => ?_
  unfold Op.Tame
  split
  . exact ho.2
  . exact ho
  . exact ho.elim
  . exact ho.elim
  . trivial

/--
Every request for service tokens is tame, except for the verification of one.
-/
theorem ProjectTokenRequest.handle_tame (q : ProjectTokenRequest) (hq : ∀ token, q ≠ .verify token)
    : Tame cfg (q.handle cfg) := by
  refine q.handle_calls.mono fun o ho => ?_
  unfold Op.Tame
  split
  . exact ho.elim
  . rcases ho with ⟨token, hverify⟩
    exact absurd hverify (hq token)
  . exact ho
  . exact ho.elim
  . trivial

end Tame

section Verify

/--
Operations of the layers that write nothing are always allowed.
-/
theorem CallAllowed.of_isGate {o : Op} (ho : o.Tame cfg) (hgate : o.isGate = true) :
    CallAllowed cfg call h o :=
  ⟨.of_tame ho, .inl hgate⟩

theorem verify_vouches (token : String) :
    (ServiceTokenVerifier.verify cfg token).Conforms (CallAllowed cfg call)
      (fun h r => ∀ project, r = some project → Vouches h (cfg.sha256Text token) project) h := by
  unfold ServiceTokenVerifier.verify
  dsimp only
  apply conforms_perform_bind (.of_isGate (by trivial) rfl)
  rintro (_ | text)
  . apply conforms_perform_bind (.of_isGate (by trivial) rfl)
    rintro (e | _ | stored)
    . nofun
    . nofun
    . dsimp only
      unfold ServiceTokenVerifier.verifyStored
      split
      . nofun
      . next hhash =>
        split
        . nofun
        . next hactive =>
          have hfound : Found (⟨.serviceToken (.findByHash (cfg.sha256Text token)),
              .ok (some stored)⟩ :: ⟨.cache (.get (ServiceTokenVerifier.cacheKey
                (cfg.sha256Text token))), none⟩ :: h) (cfg.sha256Text token) stored :=
            ⟨Called.head _ _ _, by simpa using hhash, by simpa using hactive⟩
          apply conforms_perform_bind
          . exact ⟨.inr (.inr ⟨_, stored, rfl, hfound, rfl⟩), .inl rfl⟩
          . rintro _ project hproject
            injection hproject with hproject
            exact .inr ⟨stored, hfound.append [_], hproject⟩
  . intro project hproject
    left
    rw [Project.toString_of_parse hproject]
    exact Called.head _ _ _

theorem serviceTokenAuth_conforms {path : String} {authorization : Option String}
    {next : Project → App Response}
    (hnext : ∀ token project new, bearerToken authorization = some token →
      Vouches (new ++ h) (cfg.sha256Text token) project →
      (next project).Conforms (CallAllowed cfg call) (CallAnswered cfg call) (new ++ h))
    : (serviceTokenAuth cfg path authorization next).Conforms (CallAllowed cfg call)
        (CallAnswered cfg call) h := by
  unfold serviceTokenAuth
  split
  . exact .inl rfl
  . next token htoken =>
    apply (verify_vouches token).bind
    rintro new (_ | project) hvouches
    . exact .inl rfl
    . exact hnext token project new htoken (hvouches project rfl)

end Verify

theorem layer_conforms {limiter : RateLimiter} {key : String} {next : App Response}
    (hnext : ∀ new, next.Conforms (MayWrite cfg call) (fun _ _ => True) (new ++ h))
    : (limiter.layer key next).Conforms (MayWrite cfg call) (fun _ _ => True) h := by
  have hcheck : Tame cfg (limiter.check key) := by
    unfold RateLimiter.check
    apply uses_perform_bind (by trivial)
    intro now
    apply uses_perform_bind (by trivial)
    rintro (e | allowed)
    . trivial
    . trivial
  unfold RateLimiter.layer
  apply Conforms.bind (Q := fun h' _ => ∃ new, h' = new ++ h)
  . exact Uses.conforms hcheck (fun _ _ ho => .of_tame ho) fun new _ => ⟨new, rfl⟩
  . intro new allowed _
    split
    . exact hnext new
    . trivial

theorem limited_conforms {limiter : Option RateLimiter} {key : String} {next : App Response}
    (hnext : ∀ new, next.Conforms (MayWrite cfg call) (fun _ _ => True) (new ++ h))
    : (Call.limited limiter key next).Conforms (MayWrite cfg call) (fun _ _ => True) h := by
  unfold Call.limited
  split
  . exact layer_conforms hnext
  . exact hnext []

theorem Endpoint.handle_conforms (endpoint : Endpoint) :
    (endpoint.handle cfg).Conforms (MayWrite cfg call) (fun _ _ => True) h := by
  cases endpoint with
  | auth q => exact q.handle_tame.conforms
  | key q => exact q.handle_tame.conforms
  | other layer a => trivial
  | serviceToken q =>
    by_cases hq : ∃ token, q = .verify token
    . rcases hq with ⟨token, rfl⟩
      have hverify : (ServiceTokenVerifier.verify cfg token).Conforms (MayWrite cfg call)
          (fun _ _ => True) h :=
        (verify_vouches token).mono (fun _ _ ho => ho.write) fun _ _ _ => trivial
      apply hverify.bind
      rintro new (_ | project) _
      . trivial
      . trivial
    . apply Tame.conforms
      exact q.handle_tame (by simpa using hq)

/--
Every call follows the discipline.
-/
theorem Call.handle_conforms (cfg : Config) (call : Call) :
    (call.handle cfg).Conforms (CallAllowed cfg call) (CallAnswered cfg call) [] := by
  cases call with
  | startUp adminToken =>
    apply conforms_of_letIn (by trivial)
    change (seedAdminToken cfg adminToken).Conforms _ _ _
    unfold seedAdminToken
    split
    . trivial
    . next adminToken =>
      split
      . trivial
      . next hne =>
        apply conforms_perform_bind
        . exact ⟨adminToken, rfl, hne, rfl⟩
        . intro seeded
          trivial
  | request path authorization address endpoint =>
    unfold Call.handle
    dsimp only
    split
    . next limiter hlayer =>
      apply conforms_of_letIn
      . simp [LetIn, hlayer]
      . exact limited_conforms fun _ => endpoint.handle_conforms
    . next twice limiter hlayer =>
      have hl : ∀ h, LetIn cfg (.request path authorization address endpoint) h := by
        simp [LetIn, hlayer]
      have hrest : ∀ h, (limited limiter (serviceTokenKey cfg authorization)
          (endpoint.handle cfg)).Conforms (CallAllowed cfg _) (CallAnswered cfg _) h := fun h =>
        conforms_of_letIn (hl h) (limited_conforms fun _ => endpoint.handle_conforms)
      unfold authenticated
      apply serviceTokenAuth_conforms
      intro token project new _ _
      split
      . apply serviceTokenAuth_conforms
        intro token' project' new' _ _
        apply hrest
      . apply hrest
    . next hlayer =>
      unfold managed
      apply serviceTokenAuth_conforms
      intro token project new htoken hvouches
      unfold requireAdminServiceToken
      split
      . next hadmin =>
        subst hadmin
        apply conforms_of_letIn
        . simp only [LetIn, hlayer]
          exact ⟨token, htoken, hvouches⟩
        . exact layer_conforms fun _ => endpoint.handle_conforms
      . exact .inr (.inl rfl)

end Aspectus
