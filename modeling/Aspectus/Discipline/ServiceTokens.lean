import Aspectus.Discipline.Basic
import Aspectus.Discipline.TokenRow

/-!
This module contains the discipline that the requests for service tokens follow. It says precisely which
operations a request has called before it writes the row of its project, and which it has called in total
when it is answered.
-/

namespace Aspectus

open Interaction Prog

namespace ProjectTokenRequest

/--
Whether the project of a request that stores a token is expected to have an active token.
-/
def expects : ProjectTokenRequest → Option Bool
  | .create _ => some false
  | .rotate _ => some true
  | _ => none

/--
The status of a request that has stored a token.
-/
def storedStatus : ProjectTokenRequest → Nat
  | .create _ => 201
  | _ => 200

end ProjectTokenRequest

/--
The request has read the row of its project, and nothing else.
-/
def readRow (p : Project) (token : Option StoredServiceToken) : Event Api :=
  ⟨.serviceToken (.getByProject p), .ok token⟩

def drewBytes (raw : List UInt8) : Event Api :=
  ⟨.host .random, .ok raw⟩

/--
The request may store a token: it has read the row, which is as it has to be for the request, and has
then drawn the token.
-/
def MayStore (cfg : Config) (q : ProjectTokenRequest) (h : List (Event Api)) (p : Project)
    (tokenHash tokenPrefix : String) : Prop :=
  ∃ token raw, q.project = some p ∧ q.expects = some (RowState.ofStored token).active
    ∧ tokenHash = (ServiceTokenCreator.created cfg p raw).tokenHash
    ∧ tokenPrefix = (ServiceTokenCreator.created cfg p raw).tokenPrefix
    ∧ h = [drewBytes raw, readRow p token]

/--
The request may revoke the token of a project: it has read that there is an active one.
-/
def MayRetire (q : ProjectTokenRequest) (h : List (Event Api)) (p : Project) : Prop :=
  ∃ name token, q = .revoke name ∧ q.project = some p ∧ token.isActive = true
    ∧ h = [readRow p (some token)]

/--
The request may remove a token from the cache: it is the one it has read, which has been replaced or
revoked by now.
-/
def MayForget (q : ProjectTokenRequest) (h : List (Event Api)) (key : String) : Prop :=
  ∃ p token, q.project = some p ∧ token.isActive = true
    ∧ key = ServiceTokenVerifier.cacheKey token.tokenHash
    ∧ ((∃ tokenHash tokenPrefix old raw, h = [⟨.serviceToken (.upsert p tokenHash tokenPrefix), .ok old⟩,
        drewBytes raw, readRow p (some token)])
      ∨ h = [⟨.serviceToken (.revoke p), .ok true⟩, readRow p (some token)])

/--
The request may cache the project of a token: it has just found the token.
-/
def MayRemember (q : ProjectTokenRequest) (h : List (Event Api)) (key value : String) : Prop :=
  ∃ text tokenHash token, q = .verify text ∧ key = ServiceTokenVerifier.cacheKey tokenHash
    ∧ value = token.project.toString ∧ token.tokenHash = tokenHash ∧ token.isActive = true
    ∧ h = [⟨.serviceToken (.findByHash tokenHash), .ok (some token)⟩, ⟨.cache (.get key), none⟩]

/--
What a request `q` may do after the events `h`.
-/
def TokenAllowed (cfg : Config) (q : ProjectTokenRequest) (h : List (Event Api)) : Op → Prop
  | .serviceToken (.getByProject p) =>
    ∀ p', q.project = some p' → p = p' ∧ p ≠ .aspectus ∧ h = []
  | .serviceToken (.upsert p tokenHash tokenPrefix) => MayStore cfg q h p tokenHash tokenPrefix
  | .serviceToken (.revoke p) => MayRetire q h p
  | .serviceToken (.seedAdmin _) => False
  | .serviceToken _ => q.project = none
  | .cache (.del key) => MayForget q h key
  | .cache (.set key value _) => MayRemember q h key value
  | .cache (.get _) => h = []
  | .cache _ => False
  | _ => True

/--
The operations a request about a project has called in total, newest first, and its status.
-/
inductive Course (cfg : Config) (q : ProjectTokenRequest) (p : Project) : List (Event Api) → Nat → Prop where
  | unread (e : String) : Course cfg q p [⟨.serviceToken (.getByProject p), .error e⟩] 500
  | taken (token : Option StoredServiceToken) (hcreate : q.expects = some false)
    (hactive : (RowState.ofStored token).active = true) : Course cfg q p [readRow p token] 409
  | missing (token : Option StoredServiceToken) (hcreate : q.expects ≠ some false)
    (hactive : (RowState.ofStored token).active = false) : Course cfg q p [readRow p token] 404
  | undrawn (token : Option StoredServiceToken) (e : String)
    (hexpects : q.expects = some (RowState.ofStored token).active)
    : Course cfg q p [⟨.host .random, .error e⟩, readRow p token] 500
  | unstored (token : Option StoredServiceToken) (raw : List UInt8) (e : String)
    (hexpects : q.expects = some (RowState.ofStored token).active)
    : Course cfg q p [⟨.serviceToken (.upsert p (ServiceTokenCreator.created cfg p raw).tokenHash
        (ServiceTokenCreator.created cfg p raw).tokenPrefix), .error e⟩, drewBytes raw, readRow p token] 500
  | stored (token : Option StoredServiceToken) (raw : List UInt8) (old : Option String)
    (tokenHash tokenPrefix : String) (tail : List (Event Api))
    (htail : ∀ ev ∈ tail, ServiceTokens.elsewhere ev.op)
    (hforgotten : ∀ t, token = some t → t.isActive = true →
      Called tail (.cache (.del (ServiceTokenVerifier.cacheKey t.tokenHash))) ())
    : Course cfg q p (tail ++ [⟨.serviceToken (.upsert p tokenHash tokenPrefix), .ok old⟩, drewBytes raw,
        readRow p token]) q.storedStatus
  | unrevoked (token : StoredServiceToken) (e : String) (hrevoke : q.expects = none)
    (hactive : token.isActive = true)
    : Course cfg q p [⟨.serviceToken (.revoke p), .error e⟩, readRow p (some token)] 500
  | inactive (token : StoredServiceToken) :
    Course cfg q p [⟨.serviceToken (.revoke p), .ok false⟩, readRow p (some token)] 404
  | revoked (token : StoredServiceToken) (tail : List (Event Api))
    (htail : ∀ ev ∈ tail, ServiceTokens.elsewhere ev.op)
    (hforgotten : Called tail (.cache (.del (ServiceTokenVerifier.cacheKey token.tokenHash))) ())
    : Course cfg q p (tail ++ [⟨.serviceToken (.revoke p), .ok true⟩, readRow p (some token)]) 204

/--
A token that is returned is the one that was stored.
-/
def Returned (cfg : Config) (p : Project) (h : List (Event Api)) (a : Response) : Prop :=
  ∀ c, a.body = .serviceTokenCreated c →
    ∃ raw old, c.token = (ServiceTokenCreator.created cfg p raw).token
      ∧ Called h (.serviceToken (.upsert p (ServiceTokenCreator.created cfg p raw).tokenHash
        (ServiceTokenCreator.created cfg p raw).tokenPrefix)) (.ok old)

/--
What a request `q` about the project `p` has done when it answers `a`.
-/
def Concluded (cfg : Config) (q : ProjectTokenRequest) (p : Project) (h : List (Event Api))
    (a : Response) : Prop :=
  Course cfg q p h a.status ∧ Returned cfg p h a

/--
The token with this hash was recognized: it was cached, or it was found to be active.
-/
def Recognized (h : List (Event Api)) (tokenHash : String) : Prop :=
  (∃ text, Called h (.cache (.get (ServiceTokenVerifier.cacheKey tokenHash))) (some text))
    ∨ ∃ token, Called h (.serviceToken (.findByHash tokenHash)) (.ok (some token))

/--
What a request `q` may answer after the events `h`.
-/
structure TokenAnswered (cfg : Config) (q : ProjectTokenRequest) (h : List (Event Api)) (a : Response) :
    Prop where
  concluded : ∀ p, q.project = some p → p ≠ .aspectus → Concluded cfg q p h a
  rejected : q.project = some .aspectus → a.status = ErrorCode.validationFailed.httpStatus
  recognized : ∀ token, q = .verify token → a.status ≠ ErrorCode.invalidServiceToken.httpStatus →
    Recognized h (cfg.sha256Text token)

theorem TokenAnswered.of_none {cfg : Config} {q : ProjectTokenRequest} {h : List (Event Api)}
    {a : Response} (hq : q.project = none) (hverify : ∀ token, q ≠ .verify token)
    : TokenAnswered cfg q h a := by
  constructor
  . intro p hp
    rw [hq] at hp
    contradiction
  . intro hp
    rw [hq] at hp
    contradiction
  . intro token htoken
    exact absurd htoken (hverify token)

variable {cfg : Config} {q : ProjectTokenRequest} {h : List (Event Api)} {p : Project}

theorem TokenAllowed.of_isAside {o : Op} (ho : o.isAside = true) : TokenAllowed cfg q h o := by
  unfold TokenAllowed
  split
  all_goals trivial

theorem elsewhere_of_isAside {o : Op} (ho : o.isAside = true) : ServiceTokens.elsewhere o := by
  rintro o' rfl
  contradiction

/--
The rule for an operation on the host.
-/
theorem conforms_aside {α : Type} {post : List (Event Api) → α → Prop} {o : Op} {f : o.Res → App α}
    (ho : o.isAside = true) (hf : ∀ r, (f r).Conforms (TokenAllowed cfg q) post (⟨o, r⟩ :: h))
    : (perform (S := Api) o >>= f).Conforms (TokenAllowed cfg q) post h :=
  conforms_perform_bind (.of_isAside ho) hf

namespace ServiceTokens

theorem elsewhere_cons {new : List (Event Api)} {ev : Event Api} (hev : elsewhere ev.op)
    (hnew : ∀ ev ∈ new, elsewhere ev.op) : ∀ ev' ∈ ev :: new, elsewhere ev'.op :=
  List.forall_mem_cons.mpr ⟨hev, hnew⟩

theorem elsewhere_append {new : List (Event Api)} (hnew : ∀ ev ∈ new, elsewhere ev.op) {key : String} :
    ∀ ev ∈ new ++ [(⟨.cache (.del key), ()⟩ : Event Api)], elsewhere ev.op := by
  simp only [List.forall_mem_append, List.forall_mem_singleton]
  exact ⟨hnew, nofun⟩

/--
An answer that is given after something was recorded in the audit log.
-/
theorem audited_conforms {params : AuditAuthParams} {rest : App Response}
    {post : List (Event Api) → Response → Prop}
    (hrest : ∀ new, (∀ ev ∈ new, elsewhere ev.op) →
      rest.Conforms (TokenAllowed cfg q) post (new ++ h))
    : (auditEvent params >>= fun _ => rest).Conforms (TokenAllowed cfg q) post h := by
  apply (auditEvent_aside params).conforms_bind
  . intro new o _ ho
    exact .of_isAside ho
  . intro new _ hnew
    exact hrest new fun ev hev => elsewhere_of_isAside (hnew ev hev)

theorem respond_answered {status : Nat} {action : String} {created : CreatedServiceToken}
    {post : List (Event Api) → Response → Prop}
    (hpost : ∀ new a, (∀ ev ∈ new, elsewhere ev.op) → a.status = status →
      (∀ c, a.body = .serviceTokenCreated c → c.token = created.token) → post (new ++ h) a)
    : (respond status action created).Conforms (TokenAllowed cfg q) post h := by
  unfold respond appendAuditLog
  apply audited_conforms
  intro new hnew
  apply conforms_aside rfl
  intro now
  refine hpost (_ :: new) _ (elsewhere_cons nofun hnew) rfl ?_
  intro c hc
  injection hc with hc
  subst hc
  rfl

section Managed

variable (hq : q.project = some p)
include hq

theorem persist_conforms (hcreate : q.expects = some false) (hstatus : q.storedStatus = 201)
    {token : Option StoredServiceToken} (htoken : (RowState.ofStored token).active = false)
    : (persist cfg p).Conforms (TokenAllowed cfg q) (Concluded cfg q p)
        [readRow p token] := by
  unfold persist ServiceTokenCreator.create
  have hexpects : q.expects = some (RowState.ofStored token).active := by
    rw [hcreate, htoken]
  apply conforms_aside rfl
  rintro (e | raw)
  . exact ⟨.undrawn token e hexpects, nofun⟩
  . apply conforms_perform_bind
    . exact ⟨token, raw, hq, hexpects, rfl, rfl, rfl⟩
    . rintro (e | old)
      . exact ⟨.unstored token raw e hexpects, nofun⟩
      . apply respond_answered
        intro new a hnew ha hreturned
        constructor
        . rw [ha, ← hstatus]
          apply Course.stored token raw old _ _ new hnew
          rintro t rfl hactive
          rw [active_ofStored, Option.any_some, hactive] at htoken
          contradiction
        . intro c hc
          exact ⟨raw, old, hreturned c hc, (Called.head _ _ _).append new⟩

theorem replace_conforms (hrotate : q.expects = some true) (hstatus : q.storedStatus = 200)
    {existing : StoredServiceToken} (hactive : existing.isActive = true)
    : (replace cfg p existing).Conforms (TokenAllowed cfg q) (Concluded cfg q p)
        [readRow p (some existing)] := by
  unfold replace ServiceTokenCreator.create
  have hexpects : q.expects = some (RowState.ofStored (some existing)).active := by
    rw [hrotate, active_ofStored, Option.any_some, hactive]
  apply conforms_aside rfl
  rintro (e | raw)
  . exact ⟨.undrawn _ e hexpects, nofun⟩
  . apply conforms_perform_bind
    . exact ⟨some existing, raw, hq, hexpects, rfl, rfl, rfl⟩
    . rintro (e | old)
      . exact ⟨.unstored _ raw e hexpects, nofun⟩
      . apply conforms_perform_bind
        . exact ⟨p, existing, hq, hactive, rfl, .inl ⟨_, _, old, raw, rfl⟩⟩
        . intro deleted
          apply respond_answered
          intro new a hnew ha hreturned
          constructor
          . rw [ha, ← hstatus, List.append_cons]
            apply Course.stored (some existing) raw old _ _ (new ++ [_]) (elsewhere_append hnew)
            rintro t ht _
            injection ht with ht
            subst ht
            exact (Called.head _ _ _).append new
          . intro c hc
            exact ⟨raw, old, hreturned c hc, ((Called.head _ _ _).append [_]).append new⟩

/--
Continue with what the row of the project says.
-/
theorem withActive_conforms (hp : p ≠ .aspectus) (hcreate : q.expects ≠ some false)
    {next : StoredServiceToken → App Response}
    (hnext : ∀ existing, existing.isActive = true →
      (next existing).Conforms (TokenAllowed cfg q) (Concluded cfg q p)
        [readRow p (some existing)])
    : (withActive p next).Conforms (TokenAllowed cfg q) (Concluded cfg q p) [] := by
  unfold withActive
  apply conforms_perform_bind
  . intro p' hp'
    rw [hq] at hp'
    injection hp' with hp'
    exact ⟨hp', hp, rfl⟩
  . rintro (e | _ | existing)
    . exact ⟨.unread e, nofun⟩
    . exact ⟨.missing none hcreate rfl, nofun⟩
    . dsimp only
      split
      . next hactive => exact hnext existing hactive
      . next hinactive =>
        refine ⟨.missing (some existing) hcreate ?_, nofun⟩
        rw [active_ofStored, Option.any_some]
        simpa using hinactive

theorem retire_conforms {name : String} (hrevoke : q = .revoke name) {existing : StoredServiceToken}
    (hactive : existing.isActive = true)
    : (retire p existing).Conforms (TokenAllowed cfg q) (Concluded cfg q p)
        [readRow p (some existing)] := by
  unfold retire
  apply conforms_perform_bind
  . exact ⟨name, existing, hrevoke, hq, hactive, rfl⟩
  . rintro (e | _ | _)
    . exact ⟨.unrevoked existing e (by rw [hrevoke]; rfl) hactive, nofun⟩
    . exact ⟨.inactive existing, nofun⟩
    . apply conforms_perform_bind
      . exact ⟨p, existing, hq, hactive, rfl, .inr rfl⟩
      . intro deleted
        apply audited_conforms
        intro new hnew
        refine ⟨?_, nofun⟩
        change Course cfg q p (new ++ _ :: _) 204
        rw [List.append_cons]
        exact .revoked existing (new ++ [_]) (elsewhere_append hnew) ((Called.head _ _ _).append new)

end Managed

end ServiceTokens

/--
The discipline of a request about a project.
-/
theorem managed_conforms {parsed : Except Response Project} {next : Project → App Response}
    (hverify : ∀ token, q ≠ .verify token) (hparsed : ∀ p, parsed = .ok p → q.project = some p)
    (hnone : ∀ e, parsed = .error e → q.project = none)
    (hnext : ∀ p, q.project = some p → p ≠ .aspectus →
      (next p).Conforms (TokenAllowed cfg q) (Concluded cfg q p) [])
    : (ServiceTokens.managed parsed next).Conforms (TokenAllowed cfg q) (TokenAnswered cfg q) [] := by
  unfold ServiceTokens.managed
  split
  . next response => exact .of_none (hnone response rfl) hverify
  . next p =>
    have hq := hparsed p rfl
    unfold ServiceTokens.rejectAspectus
    by_cases hp : p = .aspectus
    . rw [if_pos hp]
      constructor
      . intro p' hq' hp'
        rw [hq] at hq'
        injection hq' with hq'
        exact absurd (hq' ▸ hp) hp'
      . intro _
        rfl
      . intro token htoken
        exact absurd htoken (hverify token)
    . rw [if_neg hp]
      apply (hnext p hq hp).mono (fun _ _ ho => ho)
      intro new a ha
      constructor
      . intro p' hq' _
        rw [hq] at hq'
        injection hq' with hq'
        subst hq'
        exact ha
      . intro hq'
        rw [hq] at hq'
        injection hq' with hq'
        exact absurd hq' hp
      . intro token htoken
        exact absurd htoken (hverify token)

theorem parseProject_eq_ok {name : String} (h : ServiceTokens.parseProject name = .ok p) :
    Project.parse name = some p := by
  unfold ServiceTokens.parseProject at h
  split at h
  . next p' hp' =>
    injection h with h
    rw [hp', h]
  . contradiction

theorem parseProject_eq_error {name : String} {e : Response}
    (h : ServiceTokens.parseProject name = .error e) : Project.parse name = none := by
  unfold ServiceTokens.parseProject at h
  split at h
  . contradiction
  . next hnone => exact hnone

theorem parseProjectParam_eq_ok {name : String} (h : ServiceTokens.parseProjectParam name = .ok p) :
    Project.parse name = some p := by
  unfold ServiceTokens.parseProjectParam at h
  split at h
  . next p' hp' =>
    injection h with h
    rw [hp', h]
  . contradiction

theorem parseProjectParam_eq_error {name : String} {e : Response}
    (h : ServiceTokens.parseProjectParam name = .error e) : Project.parse name = none := by
  unfold ServiceTokens.parseProjectParam at h
  split at h
  . contradiction
  . next hnone => exact hnone

theorem verify_conforms (token : String) :
    ((ProjectTokenRequest.verify token).handle cfg).Conforms (TokenAllowed cfg (.verify token))
      (TokenAnswered cfg (.verify token)) [] := by
  unfold ProjectTokenRequest.handle ServiceTokenVerifier.verify
  dsimp only
  apply Conforms.bind (Q := fun h result => result.isSome → Recognized h (cfg.sha256Text token))
  . apply conforms_perform_bind rfl
    rintro (_ | text)
    . apply conforms_perform_bind rfl
      rintro (e | _ | stored)
      . exact nofun
      . exact nofun
      . dsimp only
        unfold ServiceTokenVerifier.verifyStored
        split
        . exact nofun
        . next hhash =>
          split
          . exact nofun
          . next hactive =>
            apply conforms_perform_bind
            . exact ⟨token, _, stored, rfl, rfl, rfl, by simpa using hhash, by simpa using hactive, rfl⟩
            . intro remembered _
              exact .inr ⟨stored, .cons (.head _ _ _) _⟩
    . intro _
      exact .inl ⟨text, .head _ _ _⟩
  . intro h result hresult
    cases result with
    | none =>
      refine ⟨nofun, nofun, ?_⟩
      intro _ _ hstatus
      exact absurd rfl hstatus
    | some project =>
      refine ⟨nofun, nofun, ?_⟩
      intro token' htoken _
      injection htoken with htoken
      subst htoken
      exact hresult rfl

/--
Every request follows the discipline.
-/
theorem ProjectTokenRequest.handle_conforms (cfg : Config) (q : ProjectTokenRequest) :
    (q.handle cfg).Conforms (TokenAllowed cfg q) (TokenAnswered cfg q) [] := by
  cases q with
  | list =>
    refine conforms_perform_bind rfl fun r => ?_
    cases r with
    | _ => exact .of_none rfl nofun
  | get name =>
    change (ServiceTokens.managed _ _).Conforms _ _ _
    unfold ServiceTokens.managed
    split
    . exact .of_none rfl nofun
    . split
      . exact .of_none rfl nofun
      . apply conforms_perform_bind nofun
        rintro (e | _ | token)
        . exact .of_none rfl nofun
        . exact .of_none rfl nofun
        . exact .of_none rfl nofun
  | create name =>
    apply managed_conforms (fun token => ProjectTokenRequest.noConfusion) (fun _ => parseProject_eq_ok) fun _ => parseProject_eq_error
    intro p hq hp
    apply conforms_perform_bind
    . intro p' hp'
      rw [hq] at hp'
      injection hp' with hp'
      exact ⟨hp', hp, rfl⟩
    . rintro (e | _ | existing)
      . exact ⟨.unread e, nofun⟩
      . exact ServiceTokens.persist_conforms hq rfl rfl rfl
      . dsimp only
        split
        . next hactive =>
          refine ⟨.taken (some existing) rfl ?_, nofun⟩
          rw [ServiceTokens.active_ofStored, Option.any_some]
          exact hactive
        . next hinactive =>
          apply ServiceTokens.persist_conforms hq rfl rfl
          rw [ServiceTokens.active_ofStored, Option.any_some]
          simpa using hinactive
  | rotate name =>
    apply managed_conforms (fun token => ProjectTokenRequest.noConfusion) (fun _ => parseProjectParam_eq_ok) fun _ => parseProjectParam_eq_error
    intro p hq hp
    exact ServiceTokens.withActive_conforms hq hp nofun fun existing hactive =>
      ServiceTokens.replace_conforms hq rfl rfl hactive
  | revoke name =>
    apply managed_conforms (fun token => ProjectTokenRequest.noConfusion) (fun _ => parseProjectParam_eq_ok) fun _ => parseProjectParam_eq_error
    intro p hq hp
    exact ServiceTokens.withActive_conforms hq hp nofun fun existing hactive =>
      ServiceTokens.retire_conforms hq rfl hactive
  | verify token => exact verify_conforms token

end Aspectus
