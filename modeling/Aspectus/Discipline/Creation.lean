import Aspectus.Discipline.Basic

/-!
This module contains what the requests for the credentials of service accounts do about the owner and the
expiry of a key: the owner is only changed by the request that has just stored the key.
-/

namespace Aspectus

open Interaction Prog

variable {cfg : Config} {h : List (Event Api)}

/--
The key was stored as `params` say, under the hash of the bytes it is made of.
-/
structure Created (cfg : Config) (kind : String) (h : List (Event Api)) (params : InsertApiKeyParams)
    (key : CreatedApiKey) : Prop where
  stored : ∃ k, Called h (.key (.insert params)) (.ok k)
  id : params.id = key.id
  token : ∃ raw, key.key = kind ++ Hex.encode raw ∧ params.keyHash = cfg.sha256 raw

def GiveAllowed (h : List (Event Api)) : Op → Prop
  | .key (.setUserOwner _ id) =>
    ∃ params k, Called h (.key (.insert params)) (.ok k) ∧ params.id = id
  | _ => True

def Op.isGift : Op → Bool
  | .key (.setUserOwner ..) => true
  | _ => false

theorem GiveAllowed.of_isGift {o : Op} (ho : o.isGift = false) : GiveAllowed h o := by
  unfold GiveAllowed
  split
  . contradiction
  . trivial

theorem conforms_giftless {α : Type} {post : List (Event Api) → α → Prop} {o : Op} {f : o.Res → App α}
    (ho : o.isGift = false) (hf : ∀ r, (f r).Conforms GiveAllowed post (⟨o, r⟩ :: h))
    : (perform (S := Api) o >>= f).Conforms GiveAllowed post h :=
  conforms_perform_bind (.of_isGift ho) hf

section Create

variable {kind tenantId serviceAccountId : String} {prefixLength : Nat} {project : Project}
  {scopes : List String} {expiresAt : App (Option Instant)} {P : Option Instant → Prop}

/--
What is known of a key that was stored.
-/
theorem insertNew_conforms (hexpiresAt : ∀ h, expiresAt.Conforms GiveAllowed (fun _ e => P e) h) :
    (ApiKeyCreator.insertNew cfg kind prefixLength tenantId serviceAccountId project scopes
        expiresAt).Conforms GiveAllowed
      (fun h r => ∀ key, r = .ok key → ∃ params, Created cfg kind h params key
        ∧ params.tenantId = tenantId ∧ params.serviceAccountId = serviceAccountId
        ∧ params.project = project ∧ params.scopes = scopes ∧ P params.expiresAt) h := by
  unfold ApiKeyCreator.insertNew
  apply conforms_giftless rfl
  intro id
  apply conforms_giftless rfl
  rintro (e | raw)
  . nofun
  . dsimp only
    apply (hexpiresAt _).bind
    intro new e he
    apply conforms_giftless rfl
    rintro (e | k)
    . nofun
    . rintro key hkey
      injection hkey with hkey
      subst hkey
      exact ⟨_, ⟨⟨k, Called.head _ _ _⟩, rfl, raw, rfl, rfl⟩, rfl, rfl, rfl, rfl, he⟩

end Create

theorem Created.append {kind : String} {params : InsertApiKeyParams} {key : CreatedApiKey}
    (hcreated : Created cfg kind h params key) (new : List (Event Api))
    : Created cfg kind (new ++ h) params key := by
  rcases hcreated with ⟨⟨k, hstored⟩, hid, htoken⟩
  exact ⟨⟨k, hstored.append new⟩, hid, htoken⟩

theorem ofCoreError_status (e : CoreError) : (ProblemDetails.ofCoreError e).status ≠ 201 := by
  cases e
  all_goals nofun

theorem notFound_status (detail : String) : (notFound detail).status ≠ 201 := by
  nofun

namespace createApiKey

variable {req : CreateApiKeyRequest} {project : Project} {ownerType ownerId tenantId : String}

/--
A request is only answered with 201 if it has stored a key with the expiry it asks for.
-/
def Answers (cfg : Config) (req : CreateApiKeyRequest) (h : List (Event Api)) (a : Response) : Prop :=
  a.status = 201 → ∃ key params, a.body = .createdKey key ∧ Created cfg "pk_live_" h params key
    ∧ params.expiresAt = req.expiresAt.bind cfg.parseRfc3339

theorem createKey_conforms :
    (createKey cfg req project ownerType ownerId tenantId).Conforms GiveAllowed (Answers cfg req)
      h := by
  unfold createKey
  have hexpiresAt : ∀ h, (Prog.pure (req.expiresAt.bind cfg.parseRfc3339) : App _).Conforms GiveAllowed
      (fun _ e => e = req.expiresAt.bind cfg.parseRfc3339) h :=
    fun _ => rfl
  apply (insertNew_conforms hexpiresAt).bind
  rintro new (e | key) hkey
  . intro hstatus
    exact absurd hstatus (ofCoreError_status e)
  . rcases hkey key rfl with ⟨params, hcreated, _, _, _, _, hexpires⟩
    have haudit : ∀ params' new', (auditEvent params' >>= fun _ =>
        Pure.pure (⟨201, .createdKey key⟩ : Response)).Conforms GiveAllowed (Answers cfg req)
          (new' ++ (new ++ h)) := by
      intro params' new'
      have hgives : (auditEvent params').Uses fun o => ∀ h, GiveAllowed h o :=
        auditEvent_uses (fun _ => trivial) (fun _ => trivial) fun _ _ _ _ _ => trivial
      apply hgives.conforms_bind fun _ _ _ ho => ho _
      rintro new'' _ _ _
      exact ⟨key, params, rfl, ((hcreated.append new').append new''), hexpires⟩
    dsimp only
    split
    . rcases hcreated.stored with ⟨k, hstored⟩
      refine conforms_perform_bind ⟨params, k, hstored, hcreated.id⟩ ?_
      intro given
      exact haudit _ [_]
    . exact haudit _ []

theorem ownerTenant_conforms :
    (ownerTenant ownerType ownerId).Conforms GiveAllowed
      (fun _ r => ∀ a, r = .error a → a.status ≠ 201) h := by
  unfold ownerTenant
  split
  . apply conforms_giftless rfl
    rintro (e | _ | user)
    . intro a ha
      rw [← Except.error.inj ha]
      exact ofCoreError_status (.internal e)
    . intro a ha
      rw [← Except.error.inj ha]
      exact notFound_status _
    . intro a ha
      cases ha
  . apply conforms_giftless rfl
    rintro (e | _ | account)
    . intro a ha
      rw [← Except.error.inj ha]
      exact ofCoreError_status (.internal e)
    . intro a ha
      rw [← Except.error.inj ha]
      exact notFound_status _
    . intro a ha
      cases ha

theorem createForOwner_conforms :
    (createForOwner cfg req project ownerType ownerId).Conforms GiveAllowed (Answers cfg req) h := by
  unfold createForOwner
  apply ownerTenant_conforms.bind
  rintro new (a | tenantId) hnot
  . intro hstatus
    exact absurd hstatus (hnot a rfl)
  . apply createKey_conforms

theorem checkScopes_status {scopes : List String} {a : Response}
    (hscopes : checkScopes project scopes = .error a) : a.status ≠ 201 := by
  induction scopes with
  | nil => contradiction
  | cons scope rest ih =>
    unfold checkScopes at hscopes
    split at hscopes
    . injection hscopes with hscopes
      subst hscopes
      nofun
    . split at hscopes
      . split at hscopes
        . exact ih hscopes
        . injection hscopes with hscopes
          subst hscopes
          nofun
      . injection hscopes with hscopes
        subst hscopes
        nofun

end createApiKey

theorem createApiKey_conforms (req : CreateApiKeyRequest) :
    (createApiKey cfg req).Conforms GiveAllowed (createApiKey.Answers cfg req) h := by
  unfold createApiKey
  split
  . intro hstatus
    exact absurd hstatus (ofCoreError_status _)
  . dsimp only
    split
    . nofun
    . split
      . nofun
      . split
        . nofun
        . split
          . next a hscopes =>
            intro hstatus
            exact absurd hstatus (createApiKey.checkScopes_status hscopes)
          . unfold createApiKey.checkExistence
            split
            . apply createApiKey.createForOwner_conforms
            . apply conforms_giftless rfl
              rintro (e | _ | _)
              . nofun
              . nofun
              . apply createApiKey.createForOwner_conforms

/--
What a request may answer: only the creation of a key is looked at.
-/
def CreationAnswered (cfg : Config) (q : KeyRequest) (h : List (Event Api)) (a : Response) : Prop :=
  ∀ req, q = .create req → createApiKey.Answers cfg req h a

theorem KeyRequest.handle_gives (cfg : Config) (q : KeyRequest) :
    (q.handle cfg).Conforms GiveAllowed (CreationAnswered cfg q) [] := by
  by_cases hq : ∃ req, q = .create req
  . rcases hq with ⟨req, rfl⟩
    apply (createApiKey_conforms req).mono (fun _ _ ho => ho)
    rintro new a hanswers req' hreq
    injection hreq with hreq
    subst hreq
    exact hanswers
  . apply Uses.conforms q.handle_calls
    . intro new o ho
      unfold GiveAllowed
      split
      . exact absurd ho hq
      . trivial
    . intro new a req hreq
      exact absurd ⟨req, hreq⟩ hq

end Aspectus
