import Aspectus.Discipline.Basic
import Aspectus.Interaction.Run

/-!
This module contains the discipline that the requests for the credentials of service accounts follow:
what is cached about a credential was read from its row before, and the cache is only cleared for a
credential that was revoked.
-/

namespace Aspectus

open Interaction Prog

variable {cfg : Config} {q : KeyRequest} {h : List (Event Api)}

/--
The request may cache an answer: it is about a key that was found and that was not revoked, and it is
cached for a part of the time the key is still valid.
-/
structure MayCache (h : List (Event Api)) (keyHash : String) (value : IntrospectResponse)
    (ttlSecs : Nat) (key : ApiKey) : Prop where
  found : Called h (.key (.findByHash keyHash)) (.ok (some key))
  unrevoked : key.revokedAt = none
  built : value = buildResponse key
  ttl : ∀ exp, key.expiresAt = some exp →
    ∃ now, Called h (.host .now) now ∧ ttlSecs = computeCacheTtl (some exp) now

/--
The request may clear the cache: it has just revoked the key.
-/
def MayClear (q : KeyRequest) (h : List (Event Api)) (cacheKey : String) : Prop :=
  ∃ id key, q = .delete id ∧ cacheKey = ApiKeyVerifier.cacheKey key.keyHash
    ∧ Called h (.key (.findById id)) (.ok (some key)) ∧ Called h (.key (.revoke id)) (.ok true)

/--
What a request `q` may do after the events `h`.
-/
def KeyAllowed (q : KeyRequest) (h : List (Event Api)) : Op → Prop
  | .cache (.setJson key value ttlSecs) =>
    ∃ keyHash k, key = ApiKeyVerifier.cacheKey keyHash ∧ MayCache h keyHash value ttlSecs k
  | .cache (.set key _ _) => ∀ keyHash, key ≠ ApiKeyVerifier.cacheKey keyHash
  | .cache (.del key) => MayClear q h key
  | _ => True

/--
The events of a verification vouch for the credential with this hash: it was found in the cache, or
not revoked in the database.
-/
def Vouched (h : List (Event Api)) (keyHash : String) : Prop :=
  (∃ cached, Called h (.cache (.getJson (ApiKeyVerifier.cacheKey keyHash))) (some cached))
    ∨ ∃ key, Called h (.key (.findByHash keyHash)) (.ok (some key)) ∧ key.revokedAt = none

/--
The answer to the verification of a token is not active, unless the events vouch for the token.
-/
def Verified (cfg : Config) (token : String) (h : List (Event Api)) (r : IntrospectResponse) :
    Prop :=
  ∀ raw, extractRawFromKey token = some raw → r.active = true → Vouched h (cfg.sha256 raw)

/--
The revocation of a key is only confirmed once the key was revoked and the cache was cleared.
-/
def Revoked (id : String) (h : List (Event Api)) : Prop :=
  ∃ key, Called h (.key (.findById id)) (.ok (some key))
    ∧ Called h (.cache (.del (ApiKeyVerifier.cacheKey key.keyHash))) ()

/--
What a request `q` may answer after the events `h`.
-/
def KeyAnswered (cfg : Config) (q : KeyRequest) (h : List (Event Api)) (a : Response) : Prop :=
  match q with
  | .verify token => ∀ r, a.body = .introspection r → Verified cfg token h r
  | .introspect token => ∀ r, a.body = .introspection r → Verified cfg token h r
  | .delete id => a.status = 204 → Revoked id h
  | _ => True

theorem Vouched.append {keyHash : String} (hv : Vouched h keyHash) (new : List (Event Api)) :
    Vouched (new ++ h) keyHash := by
  rcases hv with ⟨cached, hcached⟩ | ⟨key, hfound, hrevoked⟩
  . exact .inl ⟨cached, hcached.append new⟩
  . exact .inr ⟨key, hfound.append new, hrevoked⟩

/--
The other keys of the cache start differently.
-/
theorem scopeKey_ne (userId keyHash : String) :
    ScopeExpander.cacheKey userId ≠ ApiKeyVerifier.cacheKey keyHash :=
  append_ne_append (by decide) (by decide) _ _

theorem revokedKey_ne (jti keyHash : String) :
    JwtVerifier.revokedKey jti ≠ ApiKeyVerifier.cacheKey keyHash :=
  append_ne_append (by decide) (by decide) _ _

theorem rateLimitKey_ne (name : String) (bucket : Nat) (keyHash : String) :
    rateLimitKey name bucket ≠ ApiKeyVerifier.cacheKey keyHash := by
  unfold rateLimitKey
  rw [String.append_assoc, String.append_assoc]
  exact append_ne_append (by decide) (by decide) _ _

/--
Operations that are always allowed.
-/
def Op.isFree : Op → Bool
  | .cache (.setJson ..) => false
  | .cache (.set ..) => false
  | .cache (.del ..) => false
  | _ => true

theorem KeyAllowed.of_isFree {o : Op} (ho : o.isFree = true) : KeyAllowed q h o := by
  unfold KeyAllowed
  split
  . contradiction
  . contradiction
  . contradiction
  . trivial

/--
A program whose operations are allowed whatever has happened before.
-/
abbrev Free {α : Type} (p : App α) : Prop :=
  p.Uses fun o => ∀ q h, KeyAllowed q h o

theorem free_perform_bind {α : Type} {o : Op} {f : o.Res → App α} (ho : o.isFree = true)
    (hf : ∀ r, Free (f r)) : Free (perform (S := Api) o >>= f) :=
  uses_perform_bind (fun _ _ => KeyAllowed.of_isFree ho) hf

/--
The rule for a single operation that is always allowed.
-/
theorem conforms_free {α : Type} {post : List (Event Api) → α → Prop} {o : Op} {f : o.Res → App α}
    (ho : o.isFree = true) (hf : ∀ r, (f r).Conforms (KeyAllowed q) post (⟨o, r⟩ :: h))
    : (perform (S := Api) o >>= f).Conforms (KeyAllowed q) post h :=
  conforms_perform_bind (KeyAllowed.of_isFree ho) hf

/--
The rule for a program whose operations are always allowed.
-/
theorem Free.conforms_bind {α β : Type} {post : List (Event Api) → β → Prop} {p : App α}
    {f : α → App β} (hp : Free p) (hf : ∀ new a, (f a).Conforms (KeyAllowed q) post (new ++ h))
    : (p >>= f).Conforms (KeyAllowed q) post h :=
  Conforms.bind (Q := fun h' _ => ∃ new, h' = new ++ h)
    (Uses.conforms hp (fun _ _ ho => ho q _) (fun new _ => ⟨new, rfl⟩)) (fun new a _ => hf new a)

theorem auditEvent_free (params : AuditAuthParams) : Free (auditEvent params) :=
  auditEvent_uses (fun _ _ => trivial) (fun _ _ => trivial) fun _ _ _ _ _ _ => trivial

theorem expand_free (userId : String) : Free (ScopeExpander.expand userId) :=
  expand_uses (fun _ _ => trivial) (fun _ _ => trivial) fun _ _ _ => scopeKey_ne userId

namespace ApiKeyVerifier

variable {keyHash : String}

/--
The answer is not active, unless the events vouch for the credential.
-/
def Sound (keyHash : String) (h : List (Event Api)) (r : IntrospectResponse) : Prop :=
  r.active = true → Vouched h keyHash

theorem verifyCached_conforms {cached : IntrospectResponse}
    (hcached : Called h (.cache (.getJson (cacheKey keyHash))) (some cached))
    : (verifyCached cached).Conforms (KeyAllowed q) (Sound keyHash) h := by
  unfold verifyCached
  split
  . apply conforms_free rfl
    intro now
    split
    . nofun
    . exact fun _ => .inl ⟨cached, hcached.cons _⟩
  . exact fun _ => .inl ⟨cached, hcached⟩

theorem verifyActive_conforms {key : ApiKey}
    (hfound : Called h (.key (.findByHash keyHash)) (.ok (some key))) (hrevoked : key.revokedAt = none)
    : (verifyActive keyHash key).Conforms (KeyAllowed q) (Sound keyHash) h := by
  unfold verifyActive
  dsimp only
  split
  . next exp hexp =>
    apply conforms_free rfl
    intro now
    refine ⟨⟨keyHash, key, rfl, hfound.cons _, hrevoked, rfl, ?_⟩, ?_⟩
    . rintro exp' hexp'
      exact ⟨now, Called.head _ _ _, by rw [hexp']⟩
    . rintro _ _
      exact .inr ⟨key, (hfound.cons _).cons _, hrevoked⟩
  . next hexp =>
    refine ⟨⟨keyHash, key, rfl, hfound, hrevoked, rfl, ?_⟩, ?_⟩
    . simp [hexp]
    . rintro _ _
      exact .inr ⟨key, hfound.cons _, hrevoked⟩

theorem verifyKey_conforms {key : ApiKey}
    (hfound : Called h (.key (.findByHash keyHash)) (.ok (some key)))
    : (verifyKey keyHash key).Conforms (KeyAllowed q) (Sound keyHash) h := by
  unfold verifyKey
  split
  . nofun
  . split
    . nofun
    . next hrevoked =>
      have hrevoked : key.revokedAt = none := by simpa using hrevoked
      split
      . apply conforms_free rfl
        intro now
        split
        . nofun
        . exact verifyActive_conforms (hfound.cons _) hrevoked
      . exact verifyActive_conforms hfound hrevoked

theorem verify_conforms (token : String) :
    (verify cfg token).Conforms (KeyAllowed q) (Verified cfg token) h := by
  unfold verify
  split
  . nofun
  . next raw hraw =>
    have hsound : ∀ h r, Sound (cfg.sha256 raw) h r → Verified cfg token h r := by
      intro h r hr raw' hraw'
      rw [hraw] at hraw'
      injection hraw' with hraw'
      subst hraw'
      exact hr
    dsimp only
    apply conforms_free rfl
    intro cached
    cases cached with
    | some cached =>
      exact (verifyCached_conforms (Called.head _ _ _)).mono (fun _ _ ho => ho) fun _ _ => hsound _ _
    | none =>
      apply conforms_free rfl
      rintro (e | _ | key)
      . nofun
      . nofun
      . exact (verifyKey_conforms (Called.head _ _ _)).mono (fun _ _ ho => ho) fun _ _ => hsound _ _

end ApiKeyVerifier

/--
What is verified as an API key is not verified as a JWT.
-/
theorem not_jwt {token : String} {raw : List UInt8} (h : extractRawFromKey token = some raw) :
    startsWith token "eyJ" = false := by
  have hhead : token.toList.head? = some 'p' ∨ token.toList.head? = some 'o' := by
    unfold extractRawFromKey at h
    cases hkey : stripPrefix token "pk_live_" with
    | some encoded => exact .inl (startsWith_head (startsWith_of_stripPrefix hkey) rfl)
    | none =>
      cases hot : stripPrefix token "ot_" with
      | some encoded => exact .inr (startsWith_head (startsWith_of_stripPrefix hot) rfl)
      | none => simp [hkey, hot] at h
  cases hjwt : startsWith token "eyJ" with
  | false => rfl
  | true =>
    have hjwt : token.toList.head? = some 'e' := startsWith_head hjwt rfl
    simp [hjwt] at hhead

namespace TokenVerifier

theorem verify_conforms (token : String) :
    (verify cfg token).Conforms (KeyAllowed q) (Verified cfg token) h := by
  unfold verify
  split
  . next hjwt =>
    have hfree : Free (JwtVerifier.verify cfg token) := by
      unfold JwtVerifier.verify
      apply free_perform_bind rfl
      intro now
      split
      . trivial
      . apply free_perform_bind rfl
        intro revoked
        split
        . trivial
        . trivial
    apply hfree.conforms fun _ _ ho => ho q _
    intro new r raw hraw
    rw [not_jwt hraw] at hjwt
    contradiction
  . apply (ApiKeyVerifier.verify_conforms token).bind
    intro new r hr
    split
    . exact hr
    . exact hr

end TokenVerifier

theorem introspect_conforms (token : String) :
    (introspect cfg token).Conforms (KeyAllowed q)
      (fun h a => ∀ r, a.body = .introspection r → Verified cfg token h r) h := by
  unfold introspect
  apply (TokenVerifier.verify_conforms token).bind
  intro new response hresponse
  split
  . next hactive =>
    -- What is added to an active answer does not matter, it was vouched for before.
    have hanswer : ∀ new' (a : Response) r, a.body = .introspection r →
        Verified cfg token (new' ++ (new ++ h)) r := by
      intro new' a r _ raw hraw _
      exact (hresponse raw hraw hactive).append new'
    have hscope : Free (introspect.addScope response) := by
      unfold introspect.addScope
      split
      . apply Uses.bind (expand_free _)
        intro scope
        trivial
      . trivial
    have hquotas : ∀ response, Free (introspect.addQuotas response) := by
      intro response
      unfold introspect.addQuotas
      split
      . trivial
      . apply free_perform_bind rfl
        intro tenant
        split
        . split
          . trivial
          . trivial
        . trivial
    refine Uses.conforms (U := fun o => ∀ q h, KeyAllowed q h o) ?_ (fun _ _ ho => ho q _) hanswer
    apply Uses.bind hscope
    intro response
    apply Uses.bind (hquotas response)
    intro response
    trivial
  . next hinactive =>
    rintro r hbody raw hraw hactive
    injection hbody with hbody
    subst hbody
    exact absurd hactive hinactive

theorem revokeApiKey_conforms (id : String) :
    (revokeApiKey id).Conforms (KeyAllowed (.delete id)) (fun h a => a.status = 204 → Revoked id h) h := by
  unfold revokeApiKey
  apply conforms_free rfl
  rintro (e | _ | key)
  . nofun
  . nofun
  . apply conforms_free rfl
    rintro (e | _ | _)
    . nofun
    . nofun
    . refine ⟨⟨id, key, rfl, rfl, (Called.head _ _ _).cons _, Called.head _ _ _⟩, fun _ => ?_⟩
      apply conforms_free rfl
      intro revokedAt
      apply Free.conforms_bind (auditEvent_free _)
      intro new _ _
      refine ⟨key, ?_, ?_⟩
      . exact (((((Called.head _ _ _).cons _).cons _).cons _).append new)
      . exact ((Called.head _ _ _).cons _).append new

/--
A request that verifies no key and deletes none leaves their cached answers alone.
-/
theorem KeyRequest.MayCall.allowed {q : KeyRequest} {o : Op} (ho : q.MayCall cfg o)
    (hverifies : q.verifies = false) (hdelete : ∀ id, q ≠ .delete id) : KeyAllowed q h o := by
  unfold KeyAllowed
  split
  . rw [ho.1] at hverifies
    contradiction
  . rcases ho with ⟨userId, rfl⟩ | ⟨now, token, claims, _, rfl⟩
    . exact scopeKey_ne userId
    . exact revokedKey_ne _
  . rcases ho with ⟨id, hq⟩
    exact absurd hq (hdelete id)
  . trivial

theorem issueServiceToken_create_free {format tenantId serviceAccountId scopes : String}
    {project : Project} :
    Free (issueServiceToken.create cfg format tenantId serviceAccountId project scopes) := by
  unfold issueServiceToken.create
  split
  . apply Uses.bind
    . exact signWithTenantName_uses (fun _ _ => trivial) (fun _ _ => trivial) fun _ _ _ _ => trivial
    . rintro (e | token)
      . trivial
      . trivial
  . apply Uses.bind
    . apply insertNew_uses (fun _ _ => trivial) (fun _ _ => trivial) _ fun _ _ _ => trivial
      exact uses_perform_bind (fun _ _ => trivial) fun _ => trivial
    . rintro (e | key)
      . trivial
      . trivial
  . trivial

theorem issueServiceToken_conforms (req : ServiceTokenRequest) :
    (issueServiceToken cfg req).Conforms (KeyAllowed q) (fun _ _ => True) h := by
  unfold issueServiceToken
  split
  . trivial
  . apply (ApiKeyVerifier.verify_conforms req.clientSecret).bind
    intro new response _
    split
    . trivial
    . dsimp only
      split
      . trivial
      . split
        . trivial
        . exact issueServiceToken_create_free.conforms (fun _ _ ho => ho _ _) fun _ _ => trivial

/--
Every request follows the discipline.
-/
theorem KeyRequest.handle_conforms (cfg : Config) (q : KeyRequest) :
    (q.handle cfg).Conforms (KeyAllowed q) (KeyAnswered cfg q) [] := by
  cases q with
  | create req =>
    apply (KeyRequest.handle_calls (.create req)).conforms (fun _ _ ho => ho.allowed rfl nofun)
    exact fun _ _ => trivial
  | delete id => exact revokeApiKey_conforms id
  | revoke token =>
    apply (KeyRequest.handle_calls (.revoke token)).conforms (fun _ _ ho => ho.allowed rfl nofun)
    exact fun _ _ => trivial
  | introspect token => exact introspect_conforms token
  | verify token =>
    apply (ApiKeyVerifier.verify_conforms token).bind
    rintro new response hresponse r hbody
    injection hbody with hbody
    subst hbody
    exact hresponse
  | issue req =>
    apply (issueServiceToken_conforms req).mono (fun _ _ ho => ho)
    intros
    trivial

end Aspectus
