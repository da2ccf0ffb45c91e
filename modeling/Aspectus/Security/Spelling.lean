import Aspectus.Security.Answers

/-!
This module contains which texts are accepted for a credential that was issued: the decoder of hexadecimal
digits accepts both cases, and both prefixes lead to the same row.
-/

namespace Aspectus

open Interaction Prog Machine Statement ApiKeyVerifier

variable {cfg : Config} {s : Server} {draws : Nat → Draw} {kind token keyHash : String} {raw : List UInt8}
  {key : ApiKey} {id : String} {row : ApiKeyRow}

/--
The format that is reported of the credentials of a kind.
-/
def formatOf (kind : String) : String :=
  if kind = "ot_" then "opaque" else "api_key"

/--
The token has the prefix of its kind and no upper case digit.
-/
def Spelled (kind token : String) : Prop :=
  startsWith token kind = true ∧ ∀ c ∈ token.toList, Hex.isUpper c = false

/--
There is an answer about the row that is active: one in the cache, whose expiry counts in whole seconds, or the
row itself.
-/
def Live (s : Server) (row : ApiKeyRow) : Prop :=
  ((s.cached (cacheKey row.keyHash)).isSome = true
      ∧ ∀ exp, row.expiresAt = some exp → s.now.timestamp ≤ exp.timestamp)
    ∨ (row.revokedAt = none ∧ row.serviceAccountId.isSome = true
      ∧ ∀ exp, row.expiresAt = some exp → s.now ≤ exp)

section Text

theorem extractRaw_some (h : extractRawFromKey token = some raw) :
    ∃ p encoded, (p = "pk_live_" ∨ p = "ot_") ∧ token = p ++ encoded
      ∧ Hex.decode encoded = some raw := by
  unfold extractRawFromKey at h
  cases hkey : stripPrefix token "pk_live_" with
  | some encoded =>
    rw [hkey] at h
    exact ⟨"pk_live_", encoded, .inl rfl, eq_of_stripPrefix hkey, h⟩
  | none =>
    rw [hkey] at h
    cases hot : stripPrefix token "ot_" with
    | some encoded =>
      rw [hot] at h
      exact ⟨"ot_", encoded, .inr rfl, eq_of_stripPrefix hot, h⟩
    | none =>
      rw [hot] at h
      contradiction

/--
A token of one kind does not have the prefix of the other.
-/
theorem startsWith_kind {p encoded : String} (hp : p = "pk_live_" ∨ p = "ot_")
    (hkind : kind = "pk_live_" ∨ kind = "ot_") (h : startsWith (p ++ encoded) kind = true) : p = kind := by
  have hhead := fun c => startsWith_head (c := c) h
  have hencoded := fun c => startsWith_head (c := c) (startsWith_append p encoded)
  rcases hp with rfl | rfl
  . rcases hkind with rfl | rfl
    . rfl
    . have heq := (hhead 'o' rfl).symm.trans (hencoded 'p' rfl)
      contradiction
  . rcases hkind with rfl | rfl
    . have heq := (hhead 'p' rfl).symm.trans (hencoded 'o' rfl)
      contradiction
    . rfl

theorem isUpper_of_all {s : String} (h : (s.toList.all fun c => !Hex.isUpper c) = true) :
    ∀ c ∈ s.toList, Hex.isUpper c = false := by
  intro c hc
  simpa using List.all_eq_true.mp h c hc

/--
What decodes to the bytes of a credential is the credential if and only if it is spelled like it.
-/
theorem spelled_iff (hkind : kind = "pk_live_" ∨ kind = "ot_") (h : extractRawFromKey token = some raw) :
    Spelled kind token ↔ token = kind ++ Hex.encode raw := by
  constructor
  . rintro ⟨hstarts, hlower⟩
    rcases extractRaw_some h with ⟨p, encoded, hp, rfl, hdecode⟩
    rw [startsWith_kind hp hkind hstarts, Hex.encode_decode hdecode]
    intro c hc
    apply hlower
    rw [String.toList_append]
    exact List.mem_append_right _ hc
  . rintro rfl
    refine ⟨startsWith_append kind _, ?_⟩
    rw [String.toList_append, List.forall_mem_append]
    refine ⟨?_, Hex.isUpper_encode raw⟩
    rcases hkind with rfl | rfl
    . exact isUpper_of_all rfl
    . exact isUpper_of_all rfl

theorem format_active (r : IntrospectResponse) : (TokenVerifier.format token r).active = r.active := by
  unfold TokenVerifier.format
  split
  . rfl
  . rfl

theorem format_buildResponse (hkind : kind = "pk_live_" ∨ kind = "ot_") (encoded : String) :
    (TokenVerifier.format (kind ++ encoded) (buildResponse key)).tokenFormat = some (formatOf kind) := by
  unfold TokenVerifier.format
  rcases hkind with rfl | rfl
  . have hot : startsWith ("pk_live_" ++ encoded) "ot_" = false := by
      rw [Bool.eq_false_iff]
      intro hstarts
      have hsame := startsWith_kind (.inl rfl) (.inr rfl) hstarts
      contradiction
    rw [hot]
    rfl
  . rw [startsWith_append]
    rfl

end Text

section Liveness

/--
A cached answer is given until the second of the expiry is over.
-/
theorem cachedAnswer_active {now : Instant} :
    (cachedAnswer (buildResponse key) now).active = true
      ↔
    ∀ exp, key.expiresAt = some exp → now.timestamp ≤ exp.timestamp := by
  unfold cachedAnswer buildResponse
  cases key.expiresAt with
  | none => simp
  | some exp =>
    dsimp only [Option.map_some]
    split
    . next hexpired =>
      refine iff_of_false Bool.false_ne_true fun h => ?_
      exact absurd (h exp rfl) (Int.not_le.mpr hexpired)
    . next hlive =>
      refine iff_of_true rfl ?_
      rintro _ ⟨⟩
      exact Int.not_lt.mp hlive

/--
Some verification answers that the row is active if and only if the row is live.
-/
theorem live_iff (hkeys : KeysSound s) (hcache : CacheBuilt s) (hrow : s.apiKeys.lookup id = some row) :
    (∃ draws, (answer draws s row.keyHash).active = true) ↔ Live s row := by
  constructor
  . rintro ⟨draws, hactive⟩
    unfold answer at hactive
    cases hhit : hit (draws 0) s row.keyHash with
    | some r =>
      rw [hhit] at hactive
      rcases hcache.hit hhit with ⟨key, rfl, hknown⟩
      refine .inl ⟨?_, ?_⟩
      . rw [(hit_eq_some.mp hhit).2]
        rfl
      . rw [(hkeys.known hrow hknown).2.expiresAt]
        exact cachedAnswer_active.mp hactive
    | none =>
      rw [hhit] at hactive
      cases hfound : found (draws 1) s row.keyHash with
      | none =>
        rw [hfound] at hactive
        contradiction
      | some key =>
        rw [hfound] at hactive
        by_cases husable : Usable row.keyHash key s.now
        . have hread := (found_eq_some.mp hfound).2.2
          have hreflects := (hkeys.known hrow (known_of_findByHash hread)).2
          rcases findByHash_ok hread with ⟨row', hrow', hhash, hdecode⟩
          cases hkeys.unique key.id id row' row hrow' hrow hhash
          rw [hrow] at hrow'
          cases hrow'
          rcases decodeApiKey_ok hdecode with ⟨haccount, _, _, _, _, _, _, hrevoked⟩
          refine .inr ⟨hrevoked ▸ husable.unrevoked, ?_, hreflects.expiresAt ▸ husable.unexpired⟩
          rw [haccount]
          rfl
        . dsimp only at hactive
          rw [keyAnswer_unusable husable] at hactive
          contradiction
  . intro hlive
    refine ⟨fun _ => ⟨none, none, Vector.replicate 32 0, "", "", 0⟩, ?_⟩
    rcases hlive with ⟨hcached, hsecond⟩ | ⟨hrevoked, haccount, hexpires⟩
    . rcases Option.isSome_iff_exists.mp (hcache.hit_isSome (d := ⟨none, none, Vector.replicate 32 0, "", "", 0⟩)
        rfl hcached) with ⟨r, hhit⟩
      rcases hcache.hit hhit with ⟨key, rfl, hknown⟩
      unfold answer
      rw [hhit]
      apply cachedAnswer_active.mpr
      rw [← (hkeys.known hrow hknown).2.expiresAt]
      exact hsecond
    . have hserved : Served (fun _ => ⟨none, none, Vector.replicate 32 0, "", "", 0⟩) s row.keyHash row :=
        .inr ⟨rfl, hrevoked, haccount⟩
      rcases hcache.answer_served hkeys hrow hexpires hserved with ⟨key, hanswer, _⟩
      rw [hanswer]
      rfl

end Liveness

/--
The token is only accepted for the row if it is the credential that was issued, and its kind is reported.
-/
def OneSpelling (cfg : Config) (s : Server) (row : ApiKeyRow) (kind issued token : String) : Prop :=
  ∀ draws, ((TokenVerifier.verify cfg token).run (semantics cfg) draws s).1.active = true →
    (∃ raw, extractRawFromKey token = some raw ∧ cfg.sha256 raw = row.keyHash) →
      token = issued
        ∧ ((TokenVerifier.verify cfg token).run (semantics cfg) draws s).1.tokenFormat = some (formatOf kind)

/--
In every state of every execution, no token but the credential that was issued is accepted for its row if and
only if every token that decodes to the same bytes while the row is live has the prefix of the kind and no upper
case digit.
-/
theorem one_spelling (cfg : Config) (hsha : Function.Injective cfg.sha256) (s : Server) (hkeys : KeysSound s)
    (hcache : CacheBuilt s) (m : KeyMachine) (hm : KeyMachine.Reachable cfg s m) (kind : String)
    (hkind : kind = "pk_live_" ∨ kind = "ot_") (raw : List UInt8) (id : String) (row : ApiKeyRow)
    (hrow : m.store.apiKeys.lookup id = some row) (hhash : row.keyHash = cfg.sha256 raw) (token : String) :
    OneSpelling cfg m.store row kind (kind ++ Hex.encode raw) token
      ↔
    (extractRawFromKey token = some raw → Live m.store row → Spelled kind token) := by
  have hkeys := hm.keysSound_store hkeys
  have hcache := (hm.cacheBuilt hcache).1
  constructor
  . intro hone hraw hlive
    rcases (live_iff hkeys hcache hrow).mpr hlive with ⟨draws, hactive⟩
    rw [hhash] at hactive
    have haccepted : ((TokenVerifier.verify cfg token).run (semantics cfg) draws m.store).1.active = true := by
      rw [TokenVerifier.run_verify_key hraw, format_active]
      exact hactive
    exact (spelled_iff hkind hraw).mpr (hone draws haccepted ⟨raw, hraw, hhash.symm⟩).1
  . rintro hcond draws hactive ⟨raw', hraw, hsame⟩
    cases hsha (hsame.trans hhash)
    rw [TokenVerifier.run_verify_key hraw] at hactive ⊢
    rw [format_active, ← hhash] at hactive
    have hlive := (live_iff hkeys hcache hrow).mp ⟨draws, hactive⟩
    cases (spelled_iff hkind hraw).mp (hcond hraw hlive)
    rcases hcache.answer_active hactive with ⟨key, _, hanswer, _⟩
    rw [← hhash, hanswer]
    exact ⟨rfl, format_buildResponse hkind _⟩

namespace Sample

/--
The digests that are known, and a text that is no digest for all other values.
-/
def distinctSha256 (bytes : List UInt8) : String :=
  match digests.find? fun entry => entry.1 = bytes with
  | some entry => entry.2
  | none => "x" ++ Hex.encode bytes

theorem distinctSha256_injective : Function.Injective distinctSha256 := by
  have hdistinct : ∀ a ∈ digests, ∀ b ∈ digests, a.2 = b.2 → a.1 = b.1 := by
    simp [digests]
  have hofList : ∀ l : List Char, l.head? ≠ some 'x' → (String.ofList l).toList.head? ≠ some 'x' := by
    intro l hl
    rwa [String.toList_ofList]
  have hhead : ∀ a ∈ digests, a.2.toList.head? ≠ some 'x' := by
    simp only [digests, List.forall_mem_cons]
    repeat' first | apply And.intro | exact hofList _ (by decide)
    exact fun _ h => absurd h List.not_mem_nil
  have hother : ∀ a ∈ digests, ∀ bytes, a.2 ≠ "x" ++ Hex.encode bytes := by
    intro a ha bytes heq
    apply hhead a ha
    rw [heq, String.toList_append]
    rfl
  intro bytes bytes' h
  unfold distinctSha256 at h
  cases hfind : digests.find? fun entry => entry.1 = bytes with
  | some a =>
    have hbytes := List.find?_some hfind
    have ha := List.mem_of_find?_eq_some hfind
    rw [hfind] at h
    cases hfind' : digests.find? fun entry => entry.1 = bytes' with
    | some b =>
      have hbytes' := List.find?_some hfind'
      rw [hfind'] at h
      rw [← of_decide_eq_true hbytes, ← of_decide_eq_true hbytes']
      exact hdistinct a ha b (List.mem_of_find?_eq_some hfind') h
    | none =>
      rw [hfind'] at h
      exact absurd h (hother a ha bytes')
  | none =>
    rw [hfind] at h
    cases hfind' : digests.find? fun entry => entry.1 = bytes' with
    | some b =>
      rw [hfind'] at h
      exact absurd h.symm (hother b (List.mem_of_find?_eq_some hfind') bytes)
    | none =>
      rw [hfind'] at h
      exact Hex.encode_injective (append_right_injective h)

def distinctConfig : Config :=
  { config with sha256 := distinctSha256 }

def keyRow : ApiKeyRow where
  tenantId := "default"
  serviceAccountId := some serviceAccountId
  userId := none
  project := .pandaria
  keyHash := sha256 (Sample.raw 4)
  keyPrefix := takeChars 17 keyToken
  scopes := ["pandaria:session:read"]
  expiresAt := none
  revokedAt := none

/--
The key with the prefix of an opaque token.
-/
def keyTokenAsOpaque : String :=
  "ot_" ++ Hex.encode (Sample.raw 4)

end Sample

open Sample in
theorem one_spelling_key :
    OneSpelling distinctConfig (init keyServer : KeyMachine).store keyRow "pk_live_" keyToken keyToken :=
  (one_spelling distinctConfig distinctSha256_injective keyServer keyServer_sound (uncached_built fun _ => rfl)
    (init keyServer) .refl "pk_live_" (.inl rfl) (Sample.raw 4) keyId keyRow rfl (by decide +kernel)
    keyToken).mpr fun _ _ => ⟨startsWith_append _ _, isUpper_of_all (by decide +kernel)⟩

open Sample in
/--
A key is accepted with the prefix of an opaque token, and is then reported as one.
-/
theorem one_spelling_opaque :
    Function.Injective distinctConfig.sha256 ∧ KeysSound keyServer ∧ CacheBuilt keyServer
      ∧ keyServer.apiKeys.lookup keyId = some keyRow ∧ keyRow.keyHash = distinctConfig.sha256 (Sample.raw 4)
      ∧ ((TokenVerifier.verify distinctConfig keyTokenAsOpaque).run (semantics distinctConfig)
          (fun _ => draw 1) keyServer).1.tokenFormat = some "opaque"
      ∧ ¬OneSpelling distinctConfig keyServer keyRow "pk_live_" keyToken keyTokenAsOpaque := by
  have hchecks : ((TokenVerifier.verify distinctConfig keyTokenAsOpaque).run (semantics distinctConfig)
        (fun _ => draw 1) keyServer).1.active = true
      ∧ keyRow.keyHash = distinctConfig.sha256 (Sample.raw 4)
      ∧ ((TokenVerifier.verify distinctConfig keyTokenAsOpaque).run (semantics distinctConfig)
        (fun _ => draw 1) keyServer).1.tokenFormat = some "opaque" := by
    decide +kernel
  rcases hchecks with ⟨hactive, hhash, hformat⟩
  refine ⟨distinctSha256_injective, keyServer_sound, uncached_built fun _ => rfl, rfl, hhash, hformat, ?_⟩
  intro hone
  have hsame := (hone (fun _ => draw 1) hactive ⟨Sample.raw 4, by decide +kernel, by decide +kernel⟩).1
  revert hsame
  decide +kernel

end Aspectus
