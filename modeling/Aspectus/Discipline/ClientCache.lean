import Aspectus.Auth.ClientCache

/-!
This module contains how the calls of a client proceed: what they have read and fetched before they store a key,
decode a token or answer.
-/

namespace Aspectus
namespace Client

open Interaction Machine

variable {Key : Type} {lib : Library Key}

abbrev ClientMachine (Key : Type) :=
  Machine (Jwks Key) (Shared Key) (Except String JwksReply) Call Answer

abbrev ClientEntry (Key : Type) :=
  Entry (Jwks Key) (Shared Key) (Except String JwksReply) Call Answer

/--
A state that any number of calls can reach, from a client that was just created.
-/
def ClientMachine.Reachable (lib : Library Key) (now : Instant) (m : ClientMachine Key) : Prop :=
  Waits (jwksSemantics lib) (handler lib) JwksOp.enabled (init (Shared.new now)) m

/--
Whether the operation changes the key or the time of its last refresh.
-/
def JwksOp.writes : JwksOp Key → Bool
  | .writeKey _ => true
  | .writeLastRefresh => true
  | _ => false

/--
A fetch of the call was given this reply.
-/
def Got (reply : Except String JwksReply) (h : List (Event (Jwks Key))) : Prop :=
  ⟨.getJwks, reply⟩ ∈ h

/--
The call saw that the last refresh is at most an hour ago.
-/
def Observed (h : List (Event (Jwks Key))) : Prop :=
  ∃ refreshed now, ⟨.readLastRefresh, (some refreshed, now)⟩ ∈ h
    ∧ now - refreshed ≤ Instant.seconds 3600

theorem Observed.cons {h : List (Event (Jwks Key))} (hobserved : Observed h) (ev : Event (Jwks Key)) :
    Observed (ev :: h) := by
  rcases hobserved with ⟨refreshed, now, hmem, hle⟩
  exact ⟨refreshed, now, List.mem_cons_of_mem _ hmem, hle⟩

/--
The call completed a successful fetch.
-/
def Fetched (h : List (Event (Jwks Key))) : Prop :=
  ⟨.release, ()⟩ ∈ h

/--
No fetch of the call failed.
-/
def Accepted (lib : Library Key) (h : List (Event (Jwks Key))) : Prop :=
  ∀ reply e, Got reply h → newKey lib reply ≠ .error e

def keyLock (lib : Library Key) : Lock (jwksSemantics lib) JwksOp.enabled where
  takes o := ∃ key, o = .writeKey key
  gives o := o = .release
  held s := s.keyHeld = true
  disjoint := by
    rintro _ ⟨key, rfl⟩
    nofun
  waits := by
    rintro _ s ⟨key, rfl⟩ henabled
    simpa [JwksOp.enabled] using henabled
  take := by
    rintro _ d s ⟨key, rfl⟩
    rfl
  give := by
    rintro _ d s rfl
    nofun
  keep := by
    intro o d s htakes hgives
    cases o with
    | writeKey key => exact absurd ⟨key, rfl⟩ htakes
    | release => exact absurd rfl hgives
    | _ => rfl
  advance _ _ := by rfl

/--
What a call does before each of its operations.
-/
def allowed (lib : Library Key) (h : List (Event (Jwks Key))) : JwksOp Key → Prop
  | .getJwks => ∀ ev ∈ h, JwksOp.writes ev.op = false
  | .writeKey key =>
    (∃ reply, Got reply h ∧ newKey lib reply = .ok key) ∧ Accepted lib h
      ∧ ∀ ev ∈ h, JwksOp.writes ev.op = false
  | .writeLastRefresh => Holding (keyLock lib).takes (keyLock lib).gives h ∧ Accepted lib h
  | .release =>
    Holding (keyLock lib).takes (keyLock lib).gives h ∧ ⟨.writeLastRefresh, ()⟩ ∈ h
  | .decode key _ => ∃ h', h = ⟨.readKey, some key⟩ :: h' ∧ (Observed h' ∨ Fetched h')
  | _ => True

def Answer.error? : Answer → Option ClientError
  | .verified (.error e) => some e
  | .refreshed (.error e) => some e
  | _ => none

/--
A call whose fetch failed fails with the same error.
-/
def Reported (lib : Library Key) (h : List (Event (Jwks Key))) (a : Answer) : Prop :=
  ∀ reply e, Got reply h → newKey lib reply = .error e → a.error? = some e

/--
A fetch of the call failed, and this is its error.
-/
structure FetchFailed (lib : Library Key) (h : List (Event (Jwks Key))) (e : ClientError) : Prop where
  got : ∃ reply, Got reply h ∧ newKey lib reply = .error e
  only : ∀ reply e', Got reply h → newKey lib reply = .error e' → e' = e

/--
What a call makes of the check of the signature.
-/
def verdict : Except String JwtClaims → Except ClientError IntrospectResponse
  | .error e => .error (.jwtVerify e)
  | .ok claims => .ok (JwtVerifier.report claims)

/--
The call read a key and checked the signature of the token with it.
-/
def Decided (token : String) (h : List (Event (Jwks Key))) (r : Except ClientError IntrospectResponse) :
    Prop :=
  ∃ key claims h', h = ⟨.decode key token, claims⟩ :: ⟨.readKey, some key⟩ :: h' ∧ r = verdict claims

/--
The call had ensured that there is a key, but then read none.
-/
def Missed (h : List (Event (Jwks Key))) : Prop :=
  ∃ h', h = ⟨.readKey, none⟩ :: h' ∧ (Observed h' ∨ Fetched h')

/--
How a verification ends.
-/
def Ended (lib : Library Key) (token : String) (h : List (Event (Jwks Key)))
    (r : Except ClientError IntrospectResponse) : Prop :=
  (∃ e, FetchFailed lib h e ∧ r = .error e) ∨ Decided token h r ∨ Missed h

/--
What the answer to a call says about what the call did.
-/
structure Answered (lib : Library Key) (q : Call) (h : List (Event (Jwks Key))) (a : Answer) : Prop where
  reported : Reported lib h a
  ended : ∀ r, a = .verified r → ∃ token, q = .verify token ∧ Ended lib token h r

theorem FetchFailed.reported {h : List (Event (Jwks Key))} {e : ClientError} (hh : FetchFailed lib h e)
    {a : Answer} (ha : a.error? = some e) : Reported lib h a := by
  intro reply e' hgot herror
  rw [hh.only reply e' hgot herror]
  exact ha

theorem Accepted.reported {h : List (Event (Jwks Key))} (hh : Accepted lib h) (a : Answer) :
    Reported lib h a :=
  fun reply e hgot herror => absurd herror (hh reply e hgot)

theorem Accepted.cons {h : List (Event (Jwks Key))} (hh : Accepted lib h) (ev : Event (Jwks Key))
    (hev : ev.op ≠ .getJwks) : Accepted lib (ev :: h) := by
  intro reply e hgot
  apply hh reply e
  cases List.mem_cons.mp hgot with
  | inl heq =>
    subst heq
    contradiction
  | inr hgot => exact hgot

/--
A fetch either completes, or fails without having stored anything.
-/
theorem fetchJwks_conforms {h : List (Event (Jwks Key))} (hwrites : ∀ ev ∈ h, JwksOp.writes ev.op = false)
    (hfirst : ∀ ev ∈ h, ev.op ≠ .getJwks)
    : (fetchJwks lib).Conforms (allowed lib) (fun h' r =>
        (r = .ok () → Fetched h' ∧ Accepted lib h')
          ∧ ∀ e, r = .error e → FetchFailed lib h' e) h := by
  unfold fetchJwks jwks
  apply Prog.conforms_perform_bind hwrites
  intro reply
  change Except String JwksReply at reply
  have hgot : ∀ reply', Got reply' (⟨.getJwks, reply⟩ :: h) → reply' = reply := by
    intro reply' hgot
    cases List.mem_cons.mp hgot with
    | inl heq =>
      injection heq
    | inr hgot => exact absurd rfl (hfirst _ hgot)
  cases hkey : newKey lib reply with
  | error e =>
    refine ⟨nofun, ?_⟩
    intro e' he'
    injection he' with he'
    subst he'
    refine ⟨⟨reply, List.mem_cons_self, hkey⟩, ?_⟩
    intro reply' e'' hreply herror
    rw [hgot reply' hreply, hkey] at herror
    injection herror with herror
    exact herror.symm
  | ok key =>
    have haccepted : Accepted lib (⟨.getJwks, reply⟩ :: h : List (Event (Jwks Key))) := by
      intro reply' e hreply
      rw [hgot reply' hreply, hkey]
      nofun
    apply Prog.conforms_perform_bind
      ⟨⟨reply, List.mem_cons_self, hkey⟩, haccepted, List.forall_mem_cons.mpr ⟨rfl, hwrites⟩⟩
    intro _
    have haccepted := haccepted.cons ⟨.writeKey key, ()⟩ nofun
    apply Prog.conforms_perform_bind ⟨.inl ⟨key, rfl⟩, haccepted⟩
    intro _
    have haccepted := haccepted.cons ⟨.writeLastRefresh, ()⟩ nofun
    apply Prog.conforms_perform_bind ⟨.inr ⟨nofun, .inl ⟨key, rfl⟩⟩, List.mem_cons_self⟩
    intro _
    have haccepted := haccepted.cons ⟨.release, ()⟩ nofun
    exact ⟨fun _ => ⟨List.mem_cons_self, haccepted⟩, nofun⟩

theorem Accepted.nil : Accepted lib [] :=
  nofun

/--
What a call knows once its key is ensured: it observed a fresh key or fetched one.
-/
theorem ensureJwks_conforms : (ensureJwks lib).Conforms (allowed lib) (fun h r =>
    (r = .ok () → (Observed h ∨ Fetched h) ∧ Accepted lib h)
      ∧ ∀ e, r = .error e → FetchFailed lib h e) [] := by
  unfold ensureJwks jwks
  apply Prog.conforms_perform_bind trivial
  rintro ⟨lastRefresh, now⟩
  dsimp only
  have haccepted := (Accepted.nil : Accepted lib []).cons ⟨.readLastRefresh, (lastRefresh, now)⟩ nofun
  split
  . next hneeds =>
    apply Prog.conforms_perform_bind trivial
    intro key
    simp only [hneeds, Bool.or_true, if_true]
    apply (fetchJwks_conforms (by simp [JwksOp.writes]) (by simp)).mono fun _ _ ho => ho
    intro new r hr
    exact ⟨fun hok => ⟨.inr (hr.1 hok).1, (hr.1 hok).2⟩, hr.2⟩
  . next hneeds =>
    refine ⟨fun _ => ⟨.inl ?_, haccepted⟩, nofun⟩
    cases lastRefresh with
    | none => simp [JwtVerifier.needsRefresh] at hneeds
    | some refreshed =>
      refine ⟨refreshed, now, List.mem_cons_self, ?_⟩
      simpa [JwtVerifier.needsRefresh] using hneeds

theorem verify_conforms (token : String) :
    (verify lib token).Conforms (allowed lib) (fun h r => Reported lib h (.verified r) ∧ Ended lib token h r)
      [] := by
  unfold verify
  apply ensureJwks_conforms.bind
  intro new r hr
  cases r with
  | error e => exact ⟨(hr.2 e rfl).reported rfl, .inl ⟨e, hr.2 e rfl, rfl⟩⟩
  | ok _ =>
    rcases hr.1 rfl with ⟨hfresh, haccepted⟩
    apply Prog.conforms_perform_bind trivial
    intro key
    have haccepted := haccepted.cons ⟨.readKey, key⟩ nofun
    cases key with
    | none => exact ⟨haccepted.reported _, .inr (.inr ⟨_, rfl, hfresh⟩)⟩
    | some key =>
      apply Prog.conforms_perform_bind ⟨_, rfl, hfresh⟩
      intro claims
      have haccepted := haccepted.cons ⟨.decode key token, claims⟩ nofun
      cases claims with
      | error e => exact ⟨haccepted.reported _, .inr (.inl ⟨key, _, _, rfl, rfl⟩)⟩
      | ok claims => exact ⟨haccepted.reported _, .inr (.inl ⟨key, _, _, rfl, rfl⟩)⟩

theorem handler_conforms (q : Call) :
    (handler lib q).Conforms (allowed lib) (Answered lib q) [] := by
  cases q with
  | verify token =>
    apply (verify_conforms token).bind
    intro new r hr
    refine ⟨hr.1, ?_⟩
    rintro _ ⟨⟩
    exact ⟨token, rfl, hr.2⟩
  | refreshJwks =>
    apply (fetchJwks_conforms (by simp) (by simp)).bind
    intro new r hr
    constructor
    . cases r with
      | error e => exact (hr.2 e rfl).reported rfl
      | ok _ => exact (hr.1 rfl).2.reported _
    . intro _ hverified
      contradiction

end Client
end Aspectus
