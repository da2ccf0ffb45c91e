import Aspectus.Interaction.Removal
import Aspectus.Security.Entries

/-!
This module contains a small deployment whose executions show that the assumptions of the results can
be met, and what happens where a result does not hold. The cryptography is given by a table of real
digests for the values that occur, and by stand-ins that obey the same laws for all others.
-/

namespace Aspectus
namespace Sample

open Interaction Machine

def raw (n : UInt8) : List UInt8 :=
  List.replicate 32 n

def clientId : String :=
  "client_2zGv5XkY1qLhT0pWcR8uNdE4sA1"

def clientSecret : String :=
  Hex.encode (raw 9)

def otherClientId : String :=
  "client_2zGv5ZlMnOpQrStUvWxYzAbCdE2"

def otherClientSecret : String :=
  Hex.encode (raw 8)

def codeVerifier : String :=
  "dBjftJeZ4CVP-mB92K27uhbUJU1p1r_wW1gFWFOEjXk"

def userId : String :=
  "2zGv5Y0aBcDeFgHiJkLmNoPqRsT"

def redirectUri : String :=
  "https://app.example/callback"

def password : String :=
  "Passw0rd"

def salt : String :=
  "YXNwZWN0dXMtc2FsdC0wMQ"

/--
The argon2id hash of `password` for `salt`.
-/
def passwordHash : String :=
  "$argon2id$v=19$m=19456,t=2,p=1$YXNwZWN0dXMtc2FsdC0wMQ$NaIsWGNXLp3jKStGfSC5jD976VJeyBhNoAhQTBSF9KY"

/--
The service token that is made of `raw n`.
-/
def serviceToken (n : UInt8) : String :=
  "st_" ++ Hex.encode (raw n)

/--
The SHA-256 digests of the values that occur.
-/
def digests : List (List UInt8 × String) := [
  (utf8 (issueTokens.refreshToken (raw 1)),
    "78d8944f5bc8cbbe0f34f3d5e9c079604b7bfe5dc613acd7b2426d9250a8ac99"),
  (utf8 (issueTokens.refreshToken (raw 2)),
    "78ed5d804919901b645034fa26ce072c3d6cae52b115c3d212d03902d799e351"),
  (utf8 (issueTokens.refreshToken (raw 5)),
    "68853ba5d0552f546fead546114b4bbcd20612d77ed7570d0ac83b4acde0b969"),
  (raw 3, "648aa5c579fb30f38af744d97d6ec840c7a91277a499a0d780f3e7314eca090b"),
  (raw 4, "9f4fb68f3e1dac82202f9aa581ce0bbf1f765df0e9ac3c8c57e20f685abab8ed"),
  (utf8 clientSecret, "4cdf1b8543776a38b14c795c2839d3710c623eee2d6c91b7df9c608529e31fa1"),
  (utf8 otherClientSecret, "3191ff9688cad7cc5fd9ccfffaa1c6797b76293daeaf793b3def05a1702e2386"),
  (utf8 codeVerifier, "13d31e961a1ad8ec2f16b10c4c982e0876a878ad6df144566ee1894acb70f9c3"),
  (utf8 (serviceToken 1), "fa5405d0719e855632a62ac335006e1b35d99cd0761da32b91c6e65b5464c94d"),
  (utf8 (serviceToken 2), "9235bd8e028ee39d5a97d89dbae7f769c53f29d10d4c4065941459fb87c1cb61"),
  (utf8 (serviceToken 3), "148bba33ab95b5d26aa9fa31509dbf77d7b2e03e64a60b28e2525601dd9237ac")
]

def sha256 (bytes : List UInt8) : String :=
  match digests.find? fun entry => entry.1 = bytes with
  | some entry => entry.2
  | none => String.ofList (List.replicate 64 '0')

theorem sha256_length (bytes : List UInt8) : (sha256 bytes).length = 64 := by
  have hdigests : ∀ entry ∈ digests, entry.2.length = 64 := by
    simp only [digests, List.forall_mem_cons]
    repeat' first | apply And.intro | exact String.length_ofList
    exact fun _ h => absurd h List.not_mem_nil
  unfold sha256
  split
  . next entry hfind => exact hdigests entry (List.mem_of_find?_eq_some hfind)
  . rw [String.length_ofList, List.length_replicate]

theorem sha256_storable (bytes : List UInt8) : Statement.storable (sha256 bytes) = true := by
  have hdigests : ∀ entry ∈ digests, Statement.storable entry.2 = true := by
    simp only [digests, List.forall_mem_cons]
    repeat' first | apply And.intro | exact Statement.storable_ofList (by decide)
    exact fun _ h => absurd h List.not_mem_nil
  unfold sha256
  split
  . next entry hfind => exact hdigests entry (List.mem_of_find?_eq_some hfind)
  . exact Statement.storable_ofList (by decide)

def hashPassword (s p : String) : String :=
  if s = salt ∧ p = password then passwordHash else "x" ++ p

def verifyPassword (p hash : String) : Except String Bool :=
  if hash = passwordHash then .ok (decide (p = password)) else .ok (decide (hash = "x" ++ p))

theorem verifyPassword_hashPassword (s p p' : String) :
    verifyPassword p' (hashPassword s p) = .ok (decide (p' = p)) := by
  unfold verifyPassword hashPassword
  by_cases h : s = salt ∧ p = password
  . simp [h]
  . have hne : "x" ++ p ≠ passwordHash := by
      intro heq
      have := congrArg (fun t : String => t.toList.head?) heq
      simp [passwordHash] at this
    rw [if_neg h, if_neg hne]
    congr 2
    apply propext
    constructor
    . intro heq
      exact (append_right_injective heq).symm
    . intro heq
      rw [heq]

def config : Config where
  sha256 := sha256
  hashPassword := hashPassword
  verifyPassword := verifyPassword
  encodeJwt claims := "eyJ" ++ claims.jti
  decodeJwt _ _ _ := none
  parseRfc3339 _ := none
  collation a b := decide (a ≤ b)
  lockout := ⟨5, by decide, 900⟩
  passwordPolicy := ⟨8, true, true, true, false⟩
  registrationEnabled := true
  jwtTtlSeconds := 900
  opaqueTokenTtlSeconds := 3600
  jwtClockSkewSeconds := 60

def now : Instant :=
  Instant.seconds 1750000000

/--
A tenant with one user and two clients, and nothing else.
-/
def server : Server where
  now := now
  tenants := (∅ : Table String Tenant).insert "default" ⟨"Default", none, .obj []⟩
  users := (∅ : Table String User).insert userId {
    tenantId := "default"
    email := some "ada@app.example"
    passwordHash := some passwordHash
    displayName := none
    isSuspended := false
    failedLoginAttempts := 0
    lockedUntil := none
    lastSignInAt := none
    createdAt := now
    updatedAt := now
  }
  roles := ∅
  scopes := ∅
  rolesScopes := ∅
  usersRoles := ∅
  oauth2Clients := ((∅ : Table String OAuth2Client).insert clientId {
    name := "App"
    redirectUris := [redirectUri]
    clientSecretHash := some (sha256 (utf8 clientSecret))
  }).insert otherClientId {
    name := "Other app"
    redirectUris := ["https://other.example/callback"]
    clientSecretHash := some (sha256 (utf8 otherClientSecret))
  }
  authorizationCodes := ∅
  refreshTokens := ∅
  passwordResetTokens := ∅
  serviceAccounts := ∅
  apiKeys := ∅
  serviceTokens := ∅
  auditLogs := ∅
  redis _ := none

def serviceAccountId : String :=
  "2zGv5aBcDeFgHiJkLmNoPqRsTuV"

def keyId : String :=
  "2zGv5bCdEfGhIjKlMnOpQrStUvW"

def keyToken : String :=
  "pk_live_" ++ Hex.encode (raw 4)

theorem keyToken_raw : extractRawFromKey keyToken = some (raw 4) :=
  extractRaw_key (raw 4)

/--
The same with a service account that has an API key.
-/
def keyServer : Server :=
  { server with
    serviceAccounts := (∅ : Table String ServiceAccount).insert serviceAccountId ⟨"default"⟩
    apiKeys := (∅ : Table String ApiKeyRow).insert keyId {
      tenantId := "default"
      serviceAccountId := some serviceAccountId
      userId := none
      project := .pandaria
      keyHash := sha256 (raw 4)
      keyPrefix := takeChars 17 keyToken
      scopes := ["pandaria:session:read"]
      expiresAt := none
      revokedAt := none
    } }

/--
The hash of the refresh token that is made of `raw n`.
-/
def tokenHash (n : UInt8) : String :=
  sha256 (utf8 (issueTokens.refreshToken (raw n)))

/--
The same after the user was given two refresh tokens.
-/
def refreshServer : Server :=
  { server with
    refreshTokens := ((∅ : Table String RefreshToken).insert (tokenHash 1)
      ⟨userId, clientId, now + issueTokens.refreshLifetime, none⟩).insert (tokenHash 5)
      ⟨userId, clientId, now + issueTokens.refreshLifetime, none⟩ }

/--
A draw without faults that yields `n` wherever bytes are random.
-/
def draw (n : Nat) : Draw where
  fault := none
  hostFault := none
  bytes := Vector.replicate 32 (UInt8.ofNat n)
  id := "2zGv60bCdEfGhIjKlMnOpQrSt" ++ toString (n + 10)
  salt := salt
  pick := 0

section Executions

variable {Req : Type} (handle : Config → Req → App Response)

/--
Let thread `i` make `k` steps.
-/
def resume (m : Machine Api Server Draw Req Response) (i n k : Nat) :
    Machine Api Server Draw Req Response :=
  runs (semantics config) (handle config) m (List.replicate k (.step i (draw n)))

/--
Start thread `i` with a request and let it make `k` steps.
-/
def serve (m : Machine Api Server Draw Req Response) (i : Nat) (q : Req) (n k : Nat) :
    Machine Api Server Draw Req Response :=
  resume handle (act (semantics config) (handle config) m (.start i q)) i n k

variable {handle} {s : Server} {m : Machine Api Server Draw Req Response} {i n k : Nat} {q : Req}

theorem reachable_init : Reaches (semantics config) (handle config) (init s) (init s) :=
  .refl

theorem reachable_resume (h : Reaches (semantics config) (handle config) (init s) m) :
    Reaches (semantics config) (handle config) (init s) (resume handle m i n k) :=
  h.trans (reaches_runs _ _)

theorem reachable_serve (h : Reaches (semantics config) (handle config) (init s) m) :
    Reaches (semantics config) (handle config) (init s) (serve handle m i q n k) :=
  reachable_resume (.act h _)

/--
A served request starts in the store that it found.
-/
theorem serve_start (hfree : (m.threads i).isNone = true) :
    ⟨i, m.store, .start q⟩ :: m.log <:+ (serve handle m i q n k).log :=
  runs_start (Option.isNone_iff_eq_none.mp hfree) q _

theorem resume_threads {j : Nat} (hj : j ≠ i) : (resume handle m i n k).threads j = m.threads j := by
  unfold resume
  induction k generalizing m with
  | zero => rfl
  | succ k ih =>
    rw [List.replicate_succ, runs, List.foldl_cons, ← runs, ih]
    exact act_threads_ne rfl hj

/--
The other threads are left alone.
-/
theorem serve_threads {j : Nat} (hj : j ≠ i) : (serve handle m i q n k).threads j = m.threads j := by
  unfold serve
  rw [resume_threads hj]
  exact act_threads_ne rfl hj

end Executions

/--
An order of two threads.
-/
theorem order_pair {order : List Nat} (hnodup : order.Nodup) (h0 : 0 ∈ order) (h1 : 1 ∈ order)
    (hall : ∀ i ∈ order, i = 0 ∨ i = 1) : ∃ i j, order = [i, j] := by
  have hperm : order.Perm [0, 1] := by
    apply (List.perm_ext_iff_of_nodup hnodup (by decide)).mpr
    intro i
    constructor
    . intro hi
      simpa using hall i hi
    . intro hi
      rcases List.mem_pair.mp hi with rfl | rfl
      . exact h0
      . exact h1
  exact List.length_eq_two.mp hperm.length_eq

def authorizeRequest (codeChallenge : Option String) : AuthorizeRequest where
  email := "ada@app.example"
  password := password
  tenantId := "default"
  clientId := clientId
  redirectUri := redirectUri
  codeChallenge := codeChallenge
  codeChallengeMethod := codeChallenge.map fun _ => "S256"

def codeGrant (codeVerifier : Option String) : TokenRequest where
  grantType := "authorization_code"
  code := some (sha256 (raw 3))
  codeVerifier := codeVerifier
  clientId := some clientId
  clientSecret := some clientSecret
  redirectUri := some redirectUri
  refreshToken := none

def refreshGrant (n : UInt8) : TokenRequest where
  grantType := "refresh_token"
  code := none
  codeVerifier := none
  clientId := some clientId
  clientSecret := some clientSecret
  redirectUri := none
  refreshToken := some (issueTokens.refreshToken (raw n))

/--
The user authorizes a client, which gets a code.
-/
def authorized (codeChallenge : Option String) : AuthMachine :=
  serve AuthRequest.handle (init server) 1 (.authorize (authorizeRequest codeChallenge)) 3 8

/--
The client redeems the code.
-/
def redeemed (codeChallenge codeVerifier : Option String) : AuthMachine :=
  serve AuthRequest.handle (authorized codeChallenge) 2 (.token (codeGrant codeVerifier)) 4 16

section Redeemed

variable {c v : Option String}

theorem redeemed_reachable :
    AuthMachine.Reachable config server (redeemed c v) :=
  reachable_serve (reachable_serve reachable_init)

theorem authorized_start :
    ⟨1, server, .start (.authorize (authorizeRequest c))⟩ :: [] <:+ (authorized c).log :=
  serve_start (m := init server) rfl

theorem authorized_free : ((authorized c).threads 2).isNone = true := by
  rw [authorized, serve_threads (by decide)]
  rfl

theorem redeemed_start :
    ⟨2, (authorized c).store, .start (.token (codeGrant v))⟩
      :: (authorized c).log <:+ (redeemed c v).log :=
  serve_start authorized_free

end Redeemed

/--
A token is about to be rotated: the grant has not stored the successor yet.
-/
def rotating : AuthMachine :=
  serve AuthRequest.handle (init refreshServer) 1 (.token (refreshGrant 1)) 2 2

/--
The token is presented once more before the first grant goes on.
-/
def straggling : AuthMachine :=
  let replaying := serve AuthRequest.handle rotating 2 (.token (refreshGrant 1)) 4 5
  resume AuthRequest.handle replaying 1 2 13

theorem straggling_reachable : AuthMachine.Reachable config refreshServer straggling :=
  reachable_resume (reachable_serve (reachable_serve reachable_init))

section Checks

variable {Req : Type} {e : Entry Api Server Draw Req Response} {i : Nat}

/--
Whether `p` holds of a log and of all logs before.
-/
def everyLog (p : List (Entry Api Server Draw Req Response) → Bool) :
    List (Entry Api Server Draw Req Response) → Bool
  | [] => p []
  | e :: log => p (e :: log) && everyLog p log

theorem of_everyLog {p : List (Entry Api Server Draw Req Response) → Bool}
    {log rest : List (Entry Api Server Draw Req Response)} (h : everyLog p log = true)
    (hrest : rest <:+ log) : p rest = true := by
  induction log with
  | nil =>
    rw [List.suffix_nil.mp hrest]
    exact h
  | cons e log ih =>
    unfold everyLog at h
    rw [Bool.and_eq_true] at h
    rcases List.suffix_cons_iff.mp hrest with heq | hold
    . rw [heq]
      exact h.1
    . exact ih h.2 hold

theorem everyLog_of {p : List (Entry Api Server Draw Req Response) → Bool}
    {log : List (Entry Api Server Draw Req Response)} (h : ∀ rest, rest <:+ log → p rest = true)
    : everyLog p log = true := by
  induction log with
  | nil => exact h [] (List.suffix_refl _)
  | cons e log ih =>
    unfold everyLog
    rw [Bool.and_eq_true]
    exact ⟨h _ (List.suffix_refl _), ih fun rest hrest => h rest (hrest.trans (List.suffix_cons _ _))⟩

/--
Thread `i` is answered with this status.
-/
def answers (i status : Nat) (e : Entry Api Server Draw Req Response) : Bool :=
  e.thread = i && match e.what with
    | .finish a => a.status = status
    | _ => false

theorem of_answers {status : Nat} (h : answers i status e = true) :
    e.thread = i ∧ ∃ a, e.what = .finish a ∧ a.status = status := by
  unfold answers at h
  simp only [Bool.and_eq_true, decide_eq_true_eq] at h
  rcases h with ⟨hi, h⟩
  split at h
  . next a hw => exact ⟨hi, a, hw, by simpa using h⟩
  . contradiction

/--
The entry is no statement that fails.
-/
def healthy (e : Entry Api Server Draw Req Response) : Bool :=
  match e.what with
  | .call _ d => d.fault.isNone
  | _ => true

theorem of_healthy (h : healthy e = true) {ev : Event Api} {d : Draw} (hw : e.what = .call ev d) :
    d.fault = none := by
  unfold healthy at h
  rw [hw] at h
  simpa using h

end Checks

section AuthChecks

variable {e : AuthEntry} {i : Nat}

/--
Thread `i` rotates a token of the user.
-/
def rotates (i : Nat) (tokenHash : String) (e : AuthEntry) : Bool :=
  e.thread = i && match e.what with
    | .call ⟨.refresh (.rotate h), .ok (some (u, c, _))⟩ _ => h = tokenHash ∧ u = userId ∧ c = clientId
    | _ => false

theorem of_rotates {tokenHash : String} (h : rotates i tokenHash e = true) :
    e.thread = i ∧ Rotated e tokenHash userId clientId := by
  unfold rotates at h
  simp only [Bool.and_eq_true, decide_eq_true_eq] at h
  rcases h with ⟨hi, h⟩
  split at h
  . next u c old d hw =>
    simp only [decide_eq_true_eq] at h
    rcases h with ⟨rfl, rfl, rfl⟩
    exact ⟨hi, old, d, hw⟩
  . contradiction

/--
Thread `i` stores a refresh token.
-/
def creates (i : Nat) (tokenHash : String) (e : AuthEntry) : Bool :=
  e.thread = i && match e.what with
    | .call ⟨.refresh (.create h u c _), .ok ()⟩ _ => h = tokenHash ∧ u = userId ∧ c = clientId
    | _ => false

theorem of_creates {tokenHash : String} (h : creates i tokenHash e = true) :
    e.thread = i ∧ RefreshCreated e tokenHash userId clientId := by
  unfold creates at h
  simp only [Bool.and_eq_true, decide_eq_true_eq] at h
  rcases h with ⟨hi, h⟩
  split at h
  . next u c expiresAt d hw =>
    simp only [decide_eq_true_eq] at h
    rcases h with ⟨rfl, rfl, rfl⟩
    exact ⟨hi, expiresAt, d, hw⟩
  . contradiction

/--
Thread `i` is answered with tokens of the user.
-/
def answersTokens (i : Nat) (e : AuthEntry) : Bool :=
  e.thread = i && match e.what with
    | .finish ⟨_, .userTokens t⟩ => t.user.id = userId
    | _ => false

theorem of_answersTokens (h : answersTokens i e = true) :
    e.thread = i ∧ ∃ status t, e.what = .finish ⟨status, .userTokens t⟩ ∧ t.user.id = userId := by
  unfold answersTokens at h
  simp only [Bool.and_eq_true, decide_eq_true_eq] at h
  rcases h with ⟨hi, h⟩
  split at h
  . next status t hw => exact ⟨hi, status, t, hw, by simpa using h⟩
  . contradiction

/--
Thread `i` is answered with the code that is made of `raw n`.
-/
def answersCode (i : Nat) (n : UInt8) (e : AuthEntry) : Bool :=
  e.thread = i && match e.what with
    | .finish ⟨status, .code code uri⟩ => status = 200 ∧ code = sha256 (raw n) ∧ uri = redirectUri
    | _ => false

theorem of_answersCode {n : UInt8} (h : answersCode i n e = true) :
    e.thread = i ∧ e.what = .finish ⟨200, .code (sha256 (raw n)) redirectUri⟩ := by
  unfold answersCode at h
  simp only [Bool.and_eq_true, decide_eq_true_eq] at h
  rcases h with ⟨hi, h⟩
  split at h
  . next status code uri hw =>
    simp only [decide_eq_true_eq] at h
    rcases h with ⟨rfl, rfl, rfl⟩
    exact ⟨hi, hw⟩
  . contradiction

end AuthChecks

end Sample
end Aspectus
