import Aspectus.Discipline.Keys
import Aspectus.Interaction.History
import Aspectus.Routes.Tenants

/-!
This module contains the schema of the quotas, and how the endpoints that report and update the quotas of
a tenant proceed.
-/

namespace Aspectus

open Interaction Prog Machine Statement

/--
A value that counts something.
-/
def IsCount (value : Json) : Prop :=
  ∃ n : Nat, n < 18446744073709551616 ∧ value = .num n

/--
A setting whose key is a known numeric one counts something.
-/
def SettingSchema (setting : String × Json) : Prop :=
  setting.1 ∈ tenants.numericQuotaKeys → IsCount setting.2

/--
A project with an object of settings.
-/
def ProjectSchema (entry : String × Json) : Prop :=
  (∃ project : Project, entry.1 = project.toString)
    ∧ ∃ settings, entry.2 = .obj settings ∧ ∀ setting ∈ settings, SettingSchema setting

/--
Quotas are an object with settings for some projects.
-/
def QuotaSchema (quotas : Json) : Prop :=
  ∃ projects, quotas = .obj projects ∧ ∀ entry ∈ projects, ProjectSchema entry

section Schema

theorem asU64_isSome {value : Json} : value.asU64.isSome ↔ IsCount value := by
  unfold Json.asU64 IsCount
  cases value with
  | num n =>
    dsimp only
    split
    . next hn =>
      refine ⟨fun _ => ⟨n.toNat, ?_, ?_⟩, fun _ => rfl⟩
      . omega
      . rw [Int.toNat_of_nonneg hn.1]
    . next hn =>
      constructor
      . nofun
      . rintro ⟨k, hk, heq⟩
        injection heq with heq
        omega
  | _ => simp

theorem checkSettings_ok (project : String) {settings : List (String × Json)} :
    tenants.checkSettings project settings = .ok () ↔ ∀ setting ∈ settings, SettingSchema setting := by
  induction settings with
  | nil => simp [tenants.checkSettings]
  | cons setting settings ih =>
    rcases setting with ⟨key, value⟩
    rw [List.forall_mem_cons, ← ih, tenants.checkSettings]
    unfold SettingSchema
    rw [← asU64_isSome]
    split
    . next hbad =>
      simp only [Bool.and_eq_true, List.contains_iff_mem, Option.isNone_iff_eq_none] at hbad
      simp [hbad]
    . next hgood =>
      simp only [Bool.and_eq_true, List.contains_iff_mem, Option.isNone_iff_eq_none, not_and] at hgood
      simp only [Option.isSome_iff_ne_none]
      exact ⟨fun h => ⟨hgood, h⟩, fun h => h.2⟩

theorem isNone_parse {text : String} :
    (Project.parse text).isNone ↔ ¬∃ project : Project, text = project.toString := by
  rw [Option.isNone_iff_eq_none]
  constructor
  . rintro hnone ⟨project, rfl⟩
    rw [Project.parse_toString] at hnone
    contradiction
  . intro hunknown
    cases hparse : Project.parse text with
    | none => rfl
    | some project => exact absurd ⟨project, (Project.toString_of_parse hparse).symm⟩ hunknown

theorem checkProjects_ok {projects : List (String × Json)} :
    tenants.checkProjects projects = .ok () ↔ ∀ entry ∈ projects, ProjectSchema entry := by
  induction projects with
  | nil => simp [tenants.checkProjects]
  | cons entry projects ih =>
    rcases entry with ⟨project, value⟩
    rw [List.forall_mem_cons, ← ih]
    unfold ProjectSchema
    by_cases hknown : (Project.parse project).isNone
    . have hunknown := isNone_parse.mp hknown
      cases value <;> simp [tenants.checkProjects, hknown, hunknown]
    . have hproject := not_not.mp (isNone_parse.not.mp hknown)
      cases value with
      | obj settings =>
        simp only [tenants.checkProjects, hknown, hproject, true_and, Json.obj.injEq, exists_eq_left',
          Bool.false_eq_true, if_false]
        rw [← checkSettings_ok project]
        cases tenants.checkSettings project settings with
        | error e => simp [Bind.bind, Except.bind]
        | ok _ => simp [Bind.bind, Except.bind]
      | _ => simp [tenants.checkProjects, hknown]

/--
The validator accepts exactly the quotas that satisfy the schema.
-/
theorem validateQuotas_ok {quotas : Json} :
    tenants.validateQuotas quotas = .ok () ↔ QuotaSchema quotas := by
  unfold tenants.validateQuotas QuotaSchema
  cases quotas with
  | obj projects =>
    dsimp only
    rw [checkProjects_ok]
    simp
  | _ => simp

end Schema

/--
No response is cached with quotas.
-/
def QuotaFree (s : Server) : Prop :=
  ∀ key entry r, s.redis key = some entry → entry.value = .response r → r.quotas = none

/--
The tenants are still there, with the same quotas.
-/
def KeepsQuotas (s s' : Server) : Prop :=
  Table.Grows (fun t t' => t'.quotas = t.quotas) s.tenants s'.tenants

/--
What all other endpoints may have done before an operation: none of them deletes tenants or sets their quotas,
and what they cache has no quotas.
-/
structure Meanwhile where
  write : Server → Server
  tenants : ∀ s, KeepsQuotas s (write s)
  cached : ∀ s, QuotaFree s → QuotaFree (write s)

/--
The requests that set the quotas of tenants, and the ones that concern the credentials of service accounts.
-/
inductive QuotaRequest where
  | put (id : String) (quotas : Json)
  | key (q : KeyRequest)

def QuotaRequest.handle (cfg : Config) : QuotaRequest → TenantApp Response
  | .put id quotas => tenants.updateQuotas id quotas
  | .key q => Prog.left (q.handle cfg)

def quotaSemantics (cfg : Config) : Semantics (Api.sum TenantApi) Server (Draw × Meanwhile) :=
  ((semantics cfg).sum fun o d s => TenantWrite.exec d s o).among Meanwhile.write

abbrev QuotaMachine : Type := Machine (Api.sum TenantApi) Server (Draw × Meanwhile) QuotaRequest Response

abbrev QuotaEntry : Type := Entry (Api.sum TenantApi) Server (Draw × Meanwhile) QuotaRequest Response

abbrev QuotaMachine.Reachable (cfg : Config) (s : Server) (m : QuotaMachine) : Prop :=
  Reaches (quotaSemantics cfg) (QuotaRequest.handle cfg) (init s) m

/--
The entry stores the quotas of the tenant, who exists.
-/
def Updated (e : QuotaEntry) (id : String) (quotas : Json) : Prop :=
  ∃ n d, e.what = .call ⟨.right (.updateQuotas id quotas), (.ok (n + 1) : Result Nat)⟩ d

/--
No statement fails, as far as the log tells.
-/
def NoFailure (log : List QuotaEntry) : Prop :=
  ∀ e ∈ log, ∀ d, (∀ o r, e.what = .call ⟨.left o, r⟩ d → o.succeeded r = true)
    ∧ ∀ o r, e.what = .call ⟨.right o, r⟩ d → o.succeeded r = true

/--
What happens is appended to what happened before.
-/
theorem conforms_extends {S : Signature} {p : Prog S α} {h : List (Event S)}
    : p.Conforms (fun _ _ => True) (fun h' _ => ∃ new, h' = new ++ h) h :=
  conforms_of_append p fun new _ => ⟨new, rfl⟩

section Introspection

variable {cfg : Config} {h : List (Event Api)}

/--
Quotas of a response that come from the cache, if there are any.
-/
def Inherited (h : List (Event Api)) (quotas : Option (List (String × Json))) : Prop :=
  quotas = none ∨ ∃ key cached, Called h (.cache (.getJson key)) (some cached) ∧ quotas = cached.quotas

theorem Inherited.append {quotas : Option (List (String × Json))} (hq : Inherited h quotas)
    (new : List (Event Api)) : Inherited (new ++ h) quotas := by
  rcases hq with hnone | ⟨key, cached, hcached, heq⟩
  . exact .inl hnone
  . exact .inr ⟨key, cached, hcached.append new, heq⟩

/--
The quotas of an active answer are the ones that were read for its tenant.
-/
def ReportsQuotas (h : List (Event Api)) (a : Response) : Prop :=
  ∀ r, a.body = .introspection r → r.active = true → ∀ id, r.tenantId = some id →
    ∃ old, Inherited h old ∧ ∃ res, Called h (.tenant (.getById id)) res
      ∧ r.quotas = match res with
        | .ok (some tenant) => (introspect.quotasOf tenant).orElse fun _ => old
        | _ => old

theorem verifyCached_inherited {key : String} {cached : IntrospectResponse}
    (hcached : Called h (.cache (.getJson key)) (some cached))
    : (ApiKeyVerifier.verifyCached cached).Conforms (fun _ _ => True) (fun h r => Inherited h r.quotas)
        h := by
  unfold ApiKeyVerifier.verifyCached
  split
  . apply conforms_perform_bind trivial
    intro now
    split
    . exact .inl rfl
    . exact .inr ⟨key, cached, hcached.cons _, rfl⟩
  . exact .inr ⟨key, cached, hcached, rfl⟩

theorem verifyActive_inherited {keyHash : String} {key : ApiKey} :
    (ApiKeyVerifier.verifyActive keyHash key).Conforms (fun _ _ => True) (fun h r => Inherited h r.quotas)
      h := by
  unfold ApiKeyVerifier.verifyActive
  dsimp only
  split
  . apply conforms_perform_bind trivial
    intro now
    exact ⟨trivial, fun _ => .inl rfl⟩
  . exact ⟨trivial, fun _ => .inl rfl⟩

theorem apiKeyVerify_inherited (token : String) :
    (ApiKeyVerifier.verify cfg token).Conforms (fun _ _ => True) (fun h r => Inherited h r.quotas) h := by
  unfold ApiKeyVerifier.verify
  split
  . exact .inl rfl
  . apply conforms_perform_bind trivial
    rintro (_ | cached)
    . apply conforms_perform_bind trivial
      rintro (e | _ | key)
      . exact .inl rfl
      . exact .inl rfl
      . dsimp only
        unfold ApiKeyVerifier.verifyKey
        split
        . exact .inl rfl
        . split
          . exact .inl rfl
          . split
            . apply conforms_perform_bind trivial
              intro now
              split
              . exact .inl rfl
              . apply verifyActive_inherited
            . apply verifyActive_inherited
    . exact verifyCached_inherited (Called.head _ _ _)

theorem jwtVerify_inherited (token : String) :
    (JwtVerifier.verify cfg token).Conforms (fun _ _ => True) (fun h r => Inherited h r.quotas) h := by
  unfold JwtVerifier.verify
  apply conforms_perform_bind trivial
  intro now
  split
  . exact .inl rfl
  . apply conforms_perform_bind trivial
    rintro (_ | _)
    . exact .inl rfl
    . exact .inl rfl

theorem verify_inherited (token : String) :
    (TokenVerifier.verify cfg token).Conforms (fun _ _ => True) (fun h r => Inherited h r.quotas) h := by
  unfold TokenVerifier.verify
  split
  . apply jwtVerify_inherited
  . apply (apiKeyVerify_inherited token).bind
    intro new r hr
    split
    . exact hr
    . exact hr

theorem addScope_keeps (response : IntrospectResponse) :
    (introspect.addScope response).Conforms (fun _ _ => True) (fun h' r =>
      (∃ new, h' = new ++ h) ∧ r.quotas = response.quotas) h := by
  unfold introspect.addScope
  split
  . apply conforms_extends.bind
    intro new scope hnew
    exact ⟨hnew, rfl⟩
  . exact ⟨⟨[], rfl⟩, rfl⟩

/--
The quotas to report once the tenant was read.
-/
def reportedQuotas (old : Option (List (String × Json))) : Result (Option Tenant) → Option (List (String × Json))
  | .ok (some tenant) => (introspect.quotasOf tenant).orElse fun _ => old
  | _ => old

theorem Inherited.reports {old : Option (List (String × Json))} {tenantId : String}
    {res : Result (Option Tenant)} {r : IntrospectResponse} (h' : Inherited h old)
    (htenant : r.tenantId = some tenantId) (hquotas : r.quotas = reportedQuotas old res)
    : ReportsQuotas (⟨.tenant (.getById tenantId), res⟩ :: h) ⟨200, .introspection r⟩ := by
  rintro _ ⟨⟩ _ id hid
  rw [htenant] at hid
  injection hid with hid
  subst hid
  refine ⟨old, h'.append [_], res, Called.head _ _ _, hquotas.trans ?_⟩
  rcases res with e | _ | tenant
  . rfl
  . rfl
  . rfl

theorem introspect_reports (token : String) :
    (introspect cfg token).Conforms (fun _ _ => True) ReportsQuotas [] := by
  unfold introspect
  apply (verify_inherited token).bind
  intro new response hresponse
  split
  . apply (addScope_keeps response).bind
    rintro new' response' ⟨⟨new'', hevents⟩, hquotas⟩
    have hinherited : Inherited (new' ++ (new ++ [])) response'.quotas := by
      rw [hevents, hquotas]
      exact hresponse.append new''
    unfold introspect.addQuotas
    split
    . next htenant =>
      rintro r ⟨⟩ _ id hid
      rw [htenant] at hid
      contradiction
    . next tenantId htenant =>
      apply conforms_perform_bind trivial
      rintro (e | _ | tenant)
      . exact hinherited.reports htenant rfl
      . exact hinherited.reports htenant rfl
      . simp only [Prog.bind]
        cases hquotas : introspect.quotasOf tenant with
        | some quotas =>
          exact hinherited.reports (r := { response' with quotas := some quotas }) htenant
            (by simp [reportedQuotas, hquotas])
        | none => exact hinherited.reports htenant (by simp [reportedQuotas, hquotas])
  . next hinactive =>
    rintro r ⟨⟩ hactive
    exact absurd hactive hinactive

end Introspection

section Requests

variable {cfg : Config}

/--
What a request does to the quotas of tenants: only a request that puts quotas stores any, once they were
validated, and no response is cached with quotas.
-/
def QuotaAllowed (q : QuotaRequest) : (Api.sum TenantApi).Op → Prop
  | .left (.cache (.setJson _ value _)) => value.quotas = none
  | .left _ => True
  | .right (.updateQuotas id quotas) => q = .put id quotas ∧ QuotaSchema quotas
  | .right (.insert ..) => False

/--
An answer to a request that puts quotas: it is successful if they were stored, and it is not without an
attempt if they satisfy the schema.
-/
structure PutAnswered (id : String) (quotas : Json) (h : List (Event (Api.sum TenantApi))) (a : Response) :
    Prop where
  stored : a.status = 204 → ∃ n, ⟨.right (.updateQuotas id quotas), (.ok (n + 1) : Result Nat)⟩ ∈ h
  refused : a.status ≠ 204 → ∀ n, ⟨.right (.updateQuotas id quotas), (.ok (n + 1) : Result Nat)⟩ ∉ h
  attempted : QuotaSchema quotas → ∃ r : Result Nat, ⟨.right (.updateQuotas id quotas), r⟩ ∈ h

/--
What an answer says about quotas.
-/
def QuotaAnswered (q : QuotaRequest) (h : List (Event (Api.sum TenantApi))) (a : Response) : Prop :=
  match q with
  | .put id quotas => PutAnswered id quotas h a
  | .key (.introspect _) => ReportsQuotas (leftEvents h) a
  | .key _ => True

theorem audit_left (action id : String) (metadata : List (String × Json)) (q : QuotaRequest) :
    (Prog.left (tenants.audit action id metadata) : TenantApp Unit).Uses (QuotaAllowed q) := by
  have huses : (tenants.audit action id metadata).Uses fun o =>
      QuotaAllowed q (.left o) :=
    auditEvent_uses trivial trivial fun _ _ _ _ => trivial
  apply huses.left.mono
  rintro _ ⟨o, rfl, ho⟩
  exact ho

theorem updateQuotas_allowed (id : String) (quotas : Json) :
    (tenants.updateQuotas id quotas).Uses (QuotaAllowed (.put id quotas)) := by
  unfold tenants.updateQuotas TenantApp.write
  split
  . trivial
  . next hvalid =>
    apply uses_perform_bind ⟨rfl, validateQuotas_ok.mp hvalid⟩
    rintro (e | _ | n)
    . trivial
    . trivial
    . apply Uses.bind (audit_left ..)
      intro _
      trivial

theorem ofCoreError_ne_noContent (e : CoreError) :
    (ProblemDetails.ofCoreError e).intoResponse.status ≠ 204 := by
  cases e <;> nofun

theorem updateQuotas_answered (id : String) (quotas : Json) :
    (tenants.updateQuotas id quotas).Conforms (fun _ _ => True) (PutAnswered id quotas) [] := by
  unfold tenants.updateQuotas TenantApp.write
  split
  . next e hinvalid =>
    refine ⟨fun h => absurd h (ofCoreError_ne_noContent e), fun _ _ => nofun, fun hschema => ?_⟩
    rw [validateQuotas_ok.mpr hschema] at hinvalid
    contradiction
  . apply conforms_perform_bind trivial
    rintro (e | _ | n)
    . exact ⟨nofun, fun _ n h => (nomatch List.mem_singleton.mp h), fun _ => ⟨_, List.mem_cons_self⟩⟩
    . exact ⟨nofun, fun _ n h => (nomatch List.mem_singleton.mp h), fun _ => ⟨_, List.mem_cons_self⟩⟩
    . apply conforms_extends.bind
      rintro new _ -
      have hstored : ⟨.right (.updateQuotas id quotas), (.ok (n + 1) : Result Nat)⟩
          ∈ new ++ [⟨.right (.updateQuotas id quotas), (.ok (n + 1) : Result Nat)⟩] :=
        List.mem_append_right new List.mem_cons_self
      exact ⟨fun _ => ⟨n, hstored⟩, fun h => absurd rfl h, fun _ => ⟨_, hstored⟩⟩

theorem QuotaRequest.handle_allowed (q : QuotaRequest) :
    (q.handle cfg).Conforms (fun _ => QuotaAllowed q) (fun _ _ => True) [] := by
  cases q with
  | put id quotas => exact (updateQuotas_allowed id quotas).conforms (fun _ _ ho => ho) fun _ _ => trivial
  | key q =>
    apply (q.handle_conforms cfg).left.mono
    . rintro new _ ⟨o, rfl, ho⟩
      unfold QuotaAllowed
      split
      . next heq =>
        injection heq with heq
        subst heq
        rcases ho with ⟨keyHash, key, _, hmay⟩
        rw [hmay.built]
        rfl
      . trivial
      . contradiction
      . contradiction
    . intros
      trivial

theorem QuotaRequest.handle_answered (q : QuotaRequest) :
    (q.handle cfg).Conforms (fun _ _ => True) (QuotaAnswered q) [] := by
  cases q with
  | put id quotas => exact updateQuotas_answered id quotas
  | key q =>
    cases q with
    | introspect token =>
      exact (introspect_reports token).left.mono (fun _ _ _ => trivial) fun _ _ ha => ha
    | _ => exact conforms_of_append _ fun _ _ => trivial

end Requests

end Aspectus
