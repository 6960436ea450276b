import MacosAuth.EndToEnd.Approval

/-!
# Honest responses are accepted

The response that the agent builds for a request passes the helper's checks: it encodes to
signing bytes, it is bound to the request, and it is fresh as long as the helper's clock
stays within the window of the response and the allowed skew.
-/

namespace MacosAuth
namespace EndToEnd

open Codec
open Protocol (utf8 FieldFits)
open Effect Effect.Program
open Helper (Crates)
open Agent (AgentEvent)

variable {crates : Crates} {request : Protocol.AuthRequestBody}

/-- The agent's reading of a request has the request's signing bytes. -/
theorem canonicalBytes_decodeRequestBody {bytes : Bytes} :
    (Agent.decodeRequestBody request).canonicalBytes = .ok bytes ↔
      request.canonicalBytes = .ok bytes := by
  rw [Agent.AuthRequestBody.canonicalBytes_eq_ok_iff, Agent.toProtocol_decodeRequestBody]
  exact and_iff_right (Agent.canonicalAlgorithmName_jsonName request.alg)

/-- The response that the agent builds for a request. -/
def honestResponse
    (digest : Bytes -> Bytes)
    (request : Protocol.AuthRequestBody)
    (decision : Agent.Decision)
    (authMethod : Agent.AuthMethod)
    (now : UInt64)
    (agentKeyId : String) : Agent.AuthResponseBody where
  protocolVersion := request.protocolVersion
  requestId := request.requestId
  nonce := request.nonce
  requestHash := digest request.encoding
  linuxHostId := request.linuxHostId
  pamService := request.pamService
  pamUser := request.pamUser
  decision := decision
  authMethod := authMethod
  createdAtMs := now
  expiresAtMs := now + min 10000 (request.expiresAtMs - now)
  agentKeyId := agentKeyId
  alg := "ed25519"
  errorCode := none
  errorMessage := none

section Honest

variable {decision : Agent.Decision} {authMethod : Agent.AuthMethod} {now : UInt64}
variable {agentKeyId : String}

theorem forRequest_eq_ok
    (encodable : request.Encodable)
    (early : now < request.expiresAtMs) :
    Agent.AuthResponseBody.forRequest crates.digest (Agent.decodeRequestBody request) decision
      authMethod now agentKeyId =
        .ok (honestResponse crates.digest request decision authMethod now agentKeyId) := by
  have canonical : (Agent.decodeRequestBody request).canonicalBytes = .ok request.encoding :=
    canonicalBytes_decodeRequestBody.mpr
      (Protocol.AuthRequestBody.canonicalBytes_eq_ok_iff.mpr ⟨encodable, rfl⟩)
  have early : ¬¬now < (Agent.decodeRequestBody request).expiresAtMs := not_not.mpr early
  rw [Agent.AuthResponseBody.forRequest, if_neg early, Agent.AuthRequestBody.sha256, canonical]
  rfl

/-- An honest response has signing bytes. -/
theorem honestResponse_encodable
    (digestLength : ∀ bytes, (crates.digest bytes).length = 32)
    (encodable : request.Encodable)
    (early : now < request.expiresAtMs)
    (keyIdFits : FieldFits (utf8 agentKeyId)) :
    (honestResponse crates.digest request decision authMethod now
      agentKeyId).toProtocol.Encodable where
  version := encodable.version
  nonceLength := encodable.nonceLength
  window := by
    have expiry := Agent.toNat_responseExpiry early
    rw [UInt64.lt_iff_toNat_lt] at early
    change now < now + min 10000 (request.expiresAtMs - now)
    rw [UInt64.lt_iff_toNat_lt, expiry]
    omega
  requestId := encodable.requestId
  requestHash := Protocol.fieldFits_of_length_le (digestLength _ ▸ by decide)
  linuxHostId := encodable.linuxHostId
  pamService := encodable.pamService
  pamUser := encodable.pamUser
  agentKeyId := keyIdFits
  errorCode := fun _ absent => nomatch absent
  errorMessage := fun _ absent => nomatch absent

/-- An honest response is bound to its request. -/
theorem honestResponse_verifyBinding (encodable : request.Encodable) :
    (honestResponse crates.digest request decision authMethod now
      agentKeyId).toProtocol.verifyBinding crates.digest request = .ok () :=
  Protocol.AuthResponseBody.verifyBinding_eq_ok_iff.mpr
    ⟨encodable, rfl, rfl, rfl, rfl, rfl, rfl⟩

end Honest

/-- Honest responses are accepted. For every request with signing bytes, every decision and
every time before the request expires, the agent's response can be built without overflow,
lives for ten seconds at most and no longer than the request, has signing bytes, passes
the helper's verification if its signature does, and is fresh at every reading of the
helper's clock that is not after its expiry and at most the skew before its creation. -/
theorem forRequest_accepted
    (crates : Crates)
    (digestLength : ∀ bytes, (crates.digest bytes).length = 32)
    (request : Protocol.AuthRequestBody)
    {requestBytes : Bytes}
    (canonical : request.canonicalBytes = .ok requestBytes)
    (decision : Agent.Decision)
    (authMethod : Agent.AuthMethod)
    (now : UInt64)
    (early : now < request.expiresAtMs)
    (agentKeyId : String)
    (keyIdFits : FieldFits (utf8 agentKeyId)) :
    ∃ body bytes,
      Agent.AuthResponseBody.forRequest crates.digest (Agent.decodeRequestBody request) decision
        authMethod now agentKeyId = .ok body ∧
      body.createdAtMs = now ∧
      body.expiresAtMs.toNat =
        now.toNat + min 10000 (request.expiresAtMs.toNat - now.toNat) ∧
      now < body.expiresAtMs ∧
      body.expiresAtMs.toNat ≤ min (now.toNat + 10000) request.expiresAtMs.toNat ∧
      body.canonicalBytes = .ok bytes ∧
      (∀ publicKey signature, publicKey.length = 32 -> crates.isVerifyingKey publicKey = true ->
        signature.length = 64 ->
        Ends (Helper.verifyForRequest crates ⟨body.toProtocol, signature⟩ request publicKey)
          [⟨.verify publicKey bytes signature, true⟩] (.ok ())) ∧
      ∀ helperNow skew : UInt64, helperNow ≤ body.expiresAtMs ->
        now.toNat ≤ helperNow.toNat + skew.toNat ->
        body.toProtocol.verifyFreshness helperNow skew = .ok () := by
  obtain ⟨encodable, rfl⟩ := Protocol.AuthRequestBody.canonicalBytes_eq_ok_iff.mp canonical
  let body := honestResponse crates.digest request decision authMethod now agentKeyId
  have bodyEncodable : body.toProtocol.Encodable :=
    honestResponse_encodable digestLength encodable early keyIdFits
  have expiry : body.expiresAtMs.toNat = min (now.toNat + 10000) request.expiresAtMs.toNat :=
    Agent.toNat_responseExpiry early
  rw [UInt64.lt_iff_toNat_lt] at early
  refine ⟨body, body.toProtocol.encoding,
    forRequest_eq_ok encodable (UInt64.lt_iff_toNat_lt.mpr early), rfl, ?_, ?_, expiry.le, ?_, ?_,
    ?_⟩
  · omega
  · rw [UInt64.lt_iff_toNat_lt]
    omega
  · refine Agent.AuthResponseBody.canonicalBytes_eq_ok_iff.mpr
      ⟨Agent.canonicalAlgorithmName_jsonName .ed25519, ?_⟩
    exact Protocol.AuthResponseBody.canonicalBytes_eq_ok_iff.mpr ⟨bodyEncodable, rfl⟩
  · intro publicKey signature keyLength validKey signatureLength
    refine Helper.ends_verifyForRequest_ok.mpr ⟨?_, honestResponse_verifyBinding encodable⟩
    exact ⟨bodyEncodable, keyLength, validKey, signatureLength, rfl⟩
  · intro helperNow skew inTime notEarly
    refine Protocol.verifyWindow_eq_ok_iff.mpr ⟨?_, notEarly⟩
    exact UInt64.le_iff_toNat_le.mp inTime

set_option maxRecDepth 4000 in
/-- The approval of the request of the host `web`, for the helper on the same clock. -/
theorem forRequest_accepted_approval :
    ∃ body : Agent.AuthResponseBody,
      Agent.AuthResponseBody.forRequest webCrates.digest
        (Agent.decodeRequestBody Agent.webRequest.body.toProtocol) .approved .biometricOrWatch 1000
        "agent-key-1" = .ok body ∧
      body.toProtocol.verifyFreshness 1000 0 = .ok () := by
  have canonical : Agent.webRequest.body.toProtocol.canonicalBytes = .ok webEncoding := rfl
  obtain ⟨body, _, built, _, _, later, _, _, _, fresh⟩ :=
    forRequest_accepted webCrates (fun _ => rfl) Agent.webRequest.body.toProtocol canonical
      .approved .biometricOrWatch 1000 (by decide) "agent-key-1"
      (Protocol.fieldFits_of_length_le (by decide))
  refine ⟨body, built, fresh 1000 0 ?_ (by decide)⟩
  rw [UInt64.le_iff_toNat_le]
  exact (UInt64.lt_iff_toNat_lt.mp later).le

/-! ## Clocks that differ -/

/-- The agent accepts the helper's request: its signature and freshness pass, the user or
the rate limiter decides, the lifetime checks pass, and the response is built and signed
at the time `now` of the agent's clock. -/
structure Answering
    (platform : Agent.Platform Bytes)
    (runtime : Agent.AgentRuntime Bytes)
    (rounds : Nat)
    (request : Agent.SignedAuthRequest)
    (decision : Agent.Decision)
    (now : UInt64)
    (response : Agent.SignedAuthResponse) : Prop where
  verified : ∃ (hostPublicKey : Bytes) (verifying : List (AgentEvent Bytes)),
    Ends (Agent.verifyRequest request hostPublicKey runtime.allowedFutureSkewMs) verifying
      (.ok ())
  answered : ∃ (lifetime : Agent.RequestLifetime)
    (first authenticating second third : List (AgentEvent Bytes)) (bytes signature : Bytes),
    lifetime.expiresAtMs = request.body.expiresAtMs ∧
    Ends lifetime.check first (.ok ()) ∧
    Ends (Agent.authenticate runtime request.body lifetime rounds) authenticating
      (.ok decision) ∧
    Ends lifetime.check second (.ok ()) ∧
    Ends (Agent.signResponse platform runtime request.body decision)
      [⟨.wallTimeMs, now⟩, ⟨.sign bytes, some signature⟩] (.ok response) ∧
    Ends lifetime.check third (.ok ())

/-- The helper prepares its request without a replay cache, and the response arrives as
the agent has signed it. Helper and agent allow the same skew. -/
structure Delivering
    (crates : Crates)
    (platform : Agent.Platform Bytes)
    (runtime : Agent.AgentRuntime Bytes)
    (rounds : Nat)
    (args : Helper.RequestArgs)
    (skew : UInt64)
    (prepared : Helper.Prepared)
    (response : Agent.SignedAuthResponse)
    (setup exchanging : List Helper.HelperEvent) : Prop where
  sameDigest : platform.digest = crates.digest
  helperSkew : prepared.allowedFutureSkewMs = skew
  agentSkew : runtime.allowedFutureSkewMs = skew
  prepares : Ends (Helper.prepareRequest crates args) setup (.ok prepared)
  noReplayCache : prepared.replayCache = none
  keyLength : prepared.agentPubkey.length = 32
  validKey : crates.isVerifyingKey prepared.agentPubkey = true
  signatureLength : response.signature.length = 64
  exchanges : Ends (Helper.exchange crates rounds prepared) exchanging
    (.ok ⟨response.body.toProtocol, response.signature⟩)

/-- The agent's reading of a signed request. -/
def decodeRequest (request : Protocol.SignedAuthRequest) : Agent.SignedAuthRequest :=
  ⟨Agent.decodeRequestBody request.body, request.signature⟩

/-- The helper's clock is ahead of the agent's by the offset. Whatever the agent decides,
the helper's exit code says so, provided that the response arrives at once, before the
deadline and before the request expires. -/
def Tolerates (skew : UInt64) (offset : Int) : Prop :=
  ∀ crates platform runtime rounds args prepared decision response setup exchanging
    (now wall lastWall : UInt64) (instant lastInstant : Nat),
    Delivering crates platform runtime rounds args skew prepared response setup exchanging ->
    Answering platform runtime rounds (decodeRequest prepared.request) decision now response ->
    (wall.toNat : Int) = now.toNat + offset ->
    prepared.request.body.createdAtMs ≤ wall -> wall ≤ lastWall -> lastWall ≤ prepared.request.body.expiresAtMs ->
    instant < prepared.deadline -> lastInstant < prepared.deadline ->
    Ends (Helper.runRequest crates rounds args)
      (setup ++ (exchanging ++ [⟨.verify prepared.agentPubkey response.body.toProtocol.encoding
        response.signature, true⟩, ⟨.wallClock, some wall⟩, ⟨.instant, instant⟩,
        ⟨.instant, lastInstant⟩, ⟨.wallClock, some lastWall⟩]))
      (.ok (Helper.exitCodeForDecision decision.toProtocol))

/-- Signing a response reads the clock once. -/
theorem ends_signResponse
    {platform : Agent.Platform Bytes}
    {runtime : Agent.AgentRuntime Bytes}
    {request : Agent.AuthRequestBody}
    {decision : Agent.Decision}
    {trace : List (AgentEvent Bytes)}
    {response : Agent.SignedAuthResponse} :
    Ends (Agent.signResponse platform runtime request decision) trace (.ok response) ↔
      ∃ now bytes, trace = [⟨.wallTimeMs, now⟩, ⟨.sign bytes, some response.signature⟩] ∧
        Agent.AuthResponseBody.forRequest platform.digest request decision
          (Agent.authMethodOf decision) now runtime.agentKeyId = .ok response.body ∧
        response.body.canonicalBytes = .ok bytes := by
  simp only [Agent.signResponse, ends_bind_ok, Agent.ends_liftExcept_ok, ends_perform]
  constructor
  · rintro ⟨_, _, now, rfl, ⟨_, rfl, equal⟩, _, _, body, rfl, ⟨rfl, built⟩, _, _, bytes, rfl,
      ⟨rfl, encoded⟩, _, _, signature, rfl, ⟨_, rfl, answered⟩, ended⟩
    obtain rfl := Except.ok.inj equal
    obtain rfl := Except.ok.inj answered
    cases signature with
    | none => exact absurd ((ends_fail _ _ _).mp ended).2 (by simp)
    | some signature =>
        obtain ⟨rfl, equal⟩ := (ends_pure _ _ _).mp ended
        obtain rfl := Except.ok.inj equal
        exact ⟨now, bytes, rfl, built, encoded⟩
  · rintro ⟨now, bytes, rfl, built, encoded⟩
    exact ⟨_, _, now, List.singleton_append.symm, ⟨now, rfl, rfl⟩, [], _, _, rfl, ⟨rfl, built⟩,
      [], _, bytes, rfl, ⟨rfl, encoded⟩, _, [], some response.signature,
      (List.append_nil _).symm, ⟨_, rfl, rfl⟩, (ends_pure _ _ _).mpr ⟨rfl, rfl⟩⟩

/-- The tolerated offsets: the agent's clock may be ahead by the allowed skew, and behind by
ten seconds as well. -/
theorem runRequest_tolerates
    (skew : UInt64)
    (offset : Int)
    (ahead : -(skew.toNat : Int) ≤ offset)
    (behind : offset ≤ min (skew.toNat : Int) 10000) :
    Tolerates skew offset := by
  intro crates platform runtime rounds args prepared decision response setup exchanging now wall
    lastWall instant lastInstant delivering answering wall_eq created later unexpired early lastEarly
  obtain ⟨_, _, _, _, _, bytes, signature, _, _, _, _, signed, _⟩ := answering.answered
  obtain ⟨reading, encoding, trace_eq, built, encoded⟩ := ends_signResponse.mp signed
  simp only [List.cons.injEq, Event.mk.injEq, heq_eq_eq, true_and, and_true] at trace_eq
  obtain ⟨rfl, _⟩ := trace_eq
  obtain ⟨_, canonical⟩ := Agent.AuthResponseBody.canonicalBytes_eq_ok_iff.mp encoded
  obtain ⟨encodable, _⟩ := Protocol.AuthResponseBody.canonicalBytes_eq_ok_iff.mp canonical
  obtain ⟨origin⟩ := Helper.ends_prepareRequest delivering.prepares
  have earlier : now < prepared.request.body.expiresAtMs := by
    by_contra late
    have expired : ¬now < (decodeRequest prepared.request).body.expiresAtMs := late
    rw [Agent.AuthResponseBody.forRequest, if_pos expired] at built
    cases built
  rw [delivering.sameDigest] at built
  obtain body_eq := Except.ok.inj (built.symm.trans (forRequest_eq_ok origin.encodable earlier))
  have expiry : response.body.expiresAtMs.toNat =
      min (now.toNat + 10000) prepared.request.body.expiresAtMs.toNat := by
    rw [body_eq]
    exact Agent.toNat_responseExpiry earlier
  rw [UInt64.le_iff_toNat_le] at created later unexpired
  have fresh (reading : UInt64) (after : wall.toNat ≤ reading.toNat)
      (before : reading.toNat ≤ lastWall.toNat) : prepared.FreshAt reading :=
    Protocol.verifyWindow_eq_ok_iff.mpr ⟨before.trans unexpired, by omega⟩
  refine Helper.ends_runRequest_ok.mpr ⟨decision.toProtocol, ?_, rfl⟩
  refine ⟨prepared, exchanging, _, ⟨response.body.toProtocol, response.signature⟩,
    ⟨setup, rfl, delivering.prepares⟩, Helper.ends_exchange_ok.mp delivering.exchanges, ?_, ?_⟩
  · refine ⟨[_], wall, instant, [], lastInstant, lastWall, rfl,
      ⟨encodable, delivering.keyLength, delivering.validKey, delivering.signatureLength, rfl⟩,
      ?_, early, fresh wall le_rfl later, ?_, ?_, lastEarly, fresh lastWall later le_rfl⟩
    · rw [body_eq]
      exact honestResponse_verifyBinding origin.encodable
    · rw [delivering.helperSkew]
      refine Protocol.verifyWindow_eq_ok_iff.mpr ⟨?_, ?_⟩
      · change wall.toNat ≤ response.body.expiresAtMs.toNat
        omega
      · change response.body.createdAtMs.toNat ≤ _
        rw [body_eq]
        change now.toNat ≤ _
        omega
    · rw [delivering.noReplayCache]
      rfl
  · rw [body_eq]
    rfl

/-! ## Two offsets -/

/-- The helper's request, at 21 seconds of its clock. -/
def lateRequest : Protocol.SignedAuthRequest where
  body := { Agent.webRequest.body.toProtocol with
    requestId := "req-21000-7"
    createdAtMs := 21000
    expiresAtMs := 36000 }
  signature := List.replicate 64 7

/-- The SHA-256 digest of the request's canonical bytes. -/
def lateHash : Bytes :=
  [245, 242, 73, 61, 9, 251, 176, 172, 45, 187, 217, 138, 172, 25, 185, 60, 146, 75, 237, 21, 28,
    98, 98, 106, 103, 251, 12, 174, 125, 109, 199, 18]

/-- The agent's response, at some time of its clock. -/
def lateResponse (now : UInt64) : Agent.SignedAuthResponse where
  body := honestResponse (fun _ => lateHash) lateRequest.body .cancelled .none now "agent-key-1"
  signature := List.replicate 64 9

def lateCrates (now : UInt64) : Crates :=
  { webCrates with
    digest := fun _ => lateHash
    responseFromJson := fun _ => some ⟨(lateResponse now).body.toProtocol, (lateResponse now).signature⟩ }

def latePlatform : Agent.Platform Bytes :=
  { Agent.webPlatform with digest := fun _ => lateHash }

def latePrepared : Helper.Prepared where
  request := lateRequest
  agentPubkey := webKey
  socket := utf8 "/run/agent.sock"
  deadline := 15000000000
  allowedFutureSkewMs := 30000
  replayCache := none

/-- The helper's surroundings: its clock stands at 21 seconds. -/
def lateRespond (world : World Unit) : (request : Helper.Call) -> request.Answer × World Unit
  | .wallClock => (some (21000 : UInt64), world)
  | .verify _ _ _ => (true, world)
  | request => world.respondHelper request

/-- The helper prepares its request. -/
def lateSetup (now : UInt64) :
    List Helper.HelperEvent × Helper.Routine Helper.Stop Helper.Prepared × World Unit :=
  System.follow lateRespond 5 (Helper.prepareRequest (lateCrates now) webArgs)
    ⟨[], .initial 0 fun _ => []⟩

/-- The helper sends its request and receives the response. -/
def lateExchange (now : UInt64) :
    List Helper.HelperEvent × Helper.Routine Helper.Stop Protocol.SignedAuthResponse ×
      World Unit :=
  System.follow lateRespond 20 (Helper.exchange (lateCrates now) 3 latePrepared)
    ⟨[], .initial 0 fun _ => []⟩

set_option maxRecDepth 4000 in
theorem lateDelivering (now : UInt64) :
    Delivering (lateCrates now) latePlatform Agent.webRuntime 3 webArgs 30000 latePrepared
      (lateResponse now) (lateSetup now).1 (lateExchange now).1 where
  sameDigest := rfl
  helperSkew := rfl
  agentSkew := rfl
  prepares := System.steps_follow lateRespond 5 (Helper.prepareRequest (lateCrates now) webArgs) _
  noReplayCache := rfl
  keyLength := rfl
  validKey := rfl
  signatureLength := rfl
  exchanges := System.steps_follow lateRespond 20 (Helper.exchange (lateCrates now) 3 latePrepared) _

/-- A check of the request's lifetime. -/
def lateAlive (now : UInt64) : List (AgentEvent Bytes) :=
  [⟨.lifetimeCancelled, false⟩, ⟨.uptimeNs, (0 : UInt64)⟩, ⟨.wallTimeMs, now⟩, ⟨.peek, .again⟩]

set_option maxRecDepth 4000 in
theorem lateAnswering
    {now : UInt64}
    (reading : now = 1000 ∨ now = 11000) :
    Answering latePlatform Agent.webRuntime 3 (decodeRequest lateRequest) .cancelled now
      (lateResponse now) := by
  have alive : Ends (Agent.RequestLifetime.check ⟨⟨15000000000⟩, 36000⟩) (lateAlive now)
      (.ok ()) := by
    rcases reading with rfl | rfl <;> exact .call (.call (.call (.call (.refl _))))
  constructor
  · refine ⟨webKey, [⟨.isValidSignature webKey (List.replicate 64 7) lateRequest.body.encoding,
      true⟩, ⟨.wallTimeMs, now⟩], ?_⟩
    rcases reading with rfl | rfl <;> exact .call (.call (.refl _))
  · refine ⟨⟨⟨15000000000⟩, 36000⟩, lateAlive now, [⟨.limiterAllow _, false⟩], lateAlive now,
      lateAlive now, (lateResponse now).body.toProtocol.encoding, (lateResponse now).signature,
      rfl, alive, .call (.refl _), alive, ?_, alive⟩
    refine ends_signResponse.mpr ⟨now, _, rfl, ?_⟩
    rcases reading with rfl | rfl <;> exact ⟨rfl, rfl⟩

/-- An agent that is ten seconds behind is understood. -/
theorem runRequest_tolerates_behind :
    Ends (Helper.runRequest (lateCrates 11000) 3 webArgs)
      ((lateSetup 11000).1 ++ ((lateExchange 11000).1 ++
        [⟨.verify webKey (lateResponse 11000).body.toProtocol.encoding
          (lateResponse 11000).signature, true⟩, ⟨.wallClock, some (21000 : UInt64)⟩,
          ⟨.instant, (0 : Nat)⟩, ⟨.instant, (0 : Nat)⟩, ⟨.wallClock, some (21000 : UInt64)⟩]))
      (.ok (Helper.exitCodeForDecision .cancelled)) :=
  runRequest_tolerates 30000 10000 (by decide) (by decide) (lateCrates 11000) latePlatform
    Agent.webRuntime 3 webArgs latePrepared .cancelled (lateResponse 11000) (lateSetup 11000).1
    (lateExchange 11000).1 11000 21000 21000 0 0 (lateDelivering 11000) (lateAnswering (.inr rfl))
    (by decide) (by decide) (by decide) (by decide) (by decide) (by decide)

set_option maxRecDepth 4000 in
/-- The helper takes the response for tampering. -/
theorem lateJudging :
    Ends (Helper.runRequest (lateCrates 1000) 3 webArgs)
      ((lateSetup 1000).1 ++ ((lateExchange 1000).1 ++ [⟨.verify webKey (lateResponse 1000).body.toProtocol.encoding
        (lateResponse 1000).signature, true⟩, ⟨.wallClock, some (21000 : UInt64)⟩,
        ⟨.instant, (0 : Nat)⟩]))
      (.error (.exit Helper.exitTamper)) := by
  refine (ends_bind _ _ _ _).mpr
    (.inl ⟨(lateSetup 1000).1, _, latePrepared, rfl, (lateDelivering 1000).prepares, ?_⟩)
  refine (ends_bind _ _ _ _).mpr
    (.inl ⟨(lateExchange 1000).1, _, _, rfl, (lateDelivering 1000).exchanges, ?_⟩)
  exact .call (.call (.call (.refl _)))

/-- An offset within the allowed skew that is not tolerated: when the agent's clock is twenty
seconds behind, its response has expired for the helper as soon as it is signed. -/
theorem runRequest_not_tolerates :
    ¬∀ (skew : UInt64) (offset : Int), -(skew.toNat : Int) ≤ offset -> offset ≤ skew.toNat ->
      Tolerates skew offset := by
  intro tolerates
  have expected := tolerates 30000 20000 (by decide) (by decide) (lateCrates 1000) latePlatform
    Agent.webRuntime 3 webArgs latePrepared .cancelled (lateResponse 1000) (lateSetup 1000).1 (lateExchange 1000).1
    1000 21000 21000 0 0 (lateDelivering 1000) (lateAnswering (.inl rfl)) (by decide) (by decide) (by decide)
    (by decide) (by decide) (by decide)
  have continued : Ends (Helper.runRequest (lateCrates 1000) 3 webArgs)
      (((lateSetup 1000).1 ++ ((lateExchange 1000).1 ++ [⟨.verify webKey (lateResponse 1000).body.toProtocol.encoding
        (lateResponse 1000).signature, true⟩, ⟨.wallClock, some (21000 : UInt64)⟩,
        ⟨.instant, (0 : Nat)⟩])) ++
        [⟨.instant, (0 : Nat)⟩, ⟨.wallClock, some (21000 : UInt64)⟩])
      (.ok (Helper.exitCodeForDecision .cancelled)) := by
    rw [List.append_assoc, List.append_assoc]
    exact expected
  exact absurd (lateJudging.complete continued) (by simp)

end EndToEnd
end MacosAuth
