import ApexForensic.Domain.PyJson
import ApexForensic.Support.Run
import ApexForensic.Support.Spacing

/-!
# The cache of public keys of the token verifier

A verification takes its key from a cache of the key set of an endpoint.  The
key set is fetched when the cache is older than its lifetime, or for a key id
that is not cached, and the latter only after a cooldown.  A fetch that returns
no key list leaves the cache as it is, its age included.
-/

namespace ApexForensic.Auth

open ApexForensic.Support ApexForensic.Domain

/-- The token library: the header of a token, the key of an entry of a key
set, and the claims of a token that is valid under a key. -/
structure TokenLibrary where
  unverifiedHeader : String → Option Json
  jwkToPem : Json → Option String
  decode : String → String → Option (List (String × Json))

def algorithm : String := "RS256"

/-- `_KID_MAX_LEN`. -/
def kidMaxLen : ℕ := 128

/-- `_UNKNOWN_KID_COOLDOWN`. -/
def unknownKidCooldown : ℚ := 10

/-- `JwtTokenVerifier._keys` and the times of the two timers. -/
structure KeyCache where
  keys : List (String × String)
  fetchedAt : ℚ
  unknownKidFetchedAt : ℚ

def KeyCache.new : KeyCache where
  keys := []
  fetchedAt := 0
  unknownKidFetchedAt := 0

/-- A call of `verify_token`, the monotonic clock when it looks at the cache,
and what a fetch would return and when; a fetch that fails returns nothing. -/
structure VerifyCall where
  token : String
  now : ℚ
  response : Option Json
  completedAt : ℚ

structure Fetch where
  stale : Bool
  start : ℚ
  response : Option Json
  completedAt : ℚ

/-! ## Reading a key set -/

section

variable (L : TokenLibrary)

/-- An entry of the key list; entries that name no key are skipped. -/
def addJwk (keys : List (String × String)) (jwk : Json) :
    List (String × String) :=
  match jwk with
  | .obj fields =>
      match getKey fields "kid" with
      | .str kid =>
          if kid = "" ∨ kidMaxLen < kid.length then keys
          else
            match L.jwkToPem jwk with
            | some pem => setItem kid pem keys
            | none => keys
      | _ => keys
  | _ => keys

/-- The keys of a document, or none when it is no key list. -/
def readJwks (body : Json) : Option (List (String × String)) :=
  match body with
  | .obj fields =>
      match getKey fields "keys" with
      | .arr items => some (items.foldl (addJwk L) [])
      | _ => none
  | _ => none

def Fetch.keyList (fetch : Fetch) : Option (List (String × String)) :=
  fetch.response.bind (readJwks L)

/-- `_fetch_jwks`. -/
def fetchJwks (fetch : Fetch) (cache : KeyCache) : KeyCache :=
  match fetch.keyList L with
  | some keys => { cache with keys, fetchedAt := fetch.completedAt }
  | none => cache

/-! ## Verification -/

/-- What a call does: the fetch it makes, the cache it leaves and the key it
finds. -/
structure Resolution where
  fetch : Option Fetch
  cache : KeyCache
  pem : Option String

/-- `self._keys.get(kid)`, or the first key for a token without `kid`. -/
def KeyCache.find (cache : KeyCache) : Option String → Option String
  | some kid => cache.keys.lookup kid
  | none => cache.keys.head?.map Prod.snd

/-- `_resolve_key`. -/
def resolveKey (ttl : ℚ) (call : VerifyCall) (kid : Option String)
    (cache : KeyCache) : Resolution :=
  let stale := decide (ttl < call.now - cache.fetchedAt)
  let unknownKid := kid.any fun kid => (cache.keys.lookup kid).isNone
  let cooldownElapsed :=
    decide (unknownKidCooldown < call.now - cache.unknownKidFetchedAt)
  if stale || unknownKid && cooldownElapsed then
    let fetch : Fetch := ⟨stale, call.now, call.response, call.completedAt⟩
    let fetched := fetchJwks L fetch cache
    let fetched : KeyCache :=
      if unknownKid then { fetched with unknownKidFetchedAt := call.now }
      else fetched
    ⟨some fetch, fetched, fetched.find kid⟩
  else ⟨none, cache, cache.find kid⟩

/-- The `kid` of a header, which may be missing; a malformed header is
rejected. -/
def headerKid (header : Json) : Option (Option String) :=
  match header with
  | .obj fields =>
      if equalsStr? (getKey fields "alg") (some algorithm) = false then none
      else
        match getKey fields "kid" with
        | .null => some none
        | .str kid => if kidMaxLen < kid.length then none else some (some kid)
        | _ => none
  | _ => none

/-- A token that was accepted, the key and the claims. -/
structure Acceptance where
  kid : Option String
  pem : String
  claims : List (String × Json)

structure Verification where
  fetch : Option Fetch
  cache : KeyCache
  accepted : Option Acceptance

/-- `verify_token`. -/
def verifyToken (ttl : ℚ) (call : VerifyCall) (cache : KeyCache) :
    Verification :=
  match (L.unverifiedHeader call.token).bind headerKid with
  | none => ⟨none, cache, none⟩
  | some kid =>
      let resolved := resolveKey L ttl call kid cache
      let accepted := do
        let pem ← resolved.pem
        let claims ← L.decode call.token pem
        return ⟨kid, pem, claims⟩
      ⟨resolved.fetch, resolved.cache, accepted⟩

/-- The cache after calls, and the fetches they made. -/
structure Verified where
  cache : KeyCache
  fetches : List Fetch

def Verified.step (ttl : ℚ) (s : Verified) (call : VerifyCall) : Verified :=
  let v := verifyToken L ttl call s.cache
  ⟨v.cache, s.fetches ++ v.fetch.toList⟩

def verified (ttl : ℚ) (calls : List VerifyCall) : Verified :=
  run (Verified.step L ttl) ⟨.new, []⟩ calls

end

end ApexForensic.Auth
