import MacosAuth.Agent.Workers
import MacosAuth.Helper.Signing

/-!
# Agreement between helpers and the agent

Any number of helper invocations and any number of workers of one agent run together over
a network that belongs to an attacker: what they receive, what they read from files and
clocks and in which order they run is unrestricted. The one thing that ties them together
is the record of signatures. A signature verifies only if the message was signed under the
key before, and only the workers of the agent and helpers that happen to share its key
sign under the key of the agent.

The main result is that an approval is never misattributed. A helper that returns success
has its counterpart in a worker that verified and evaluated the very same request, and one
response serves one invocation at most.
-/

namespace MacosAuth
namespace EndToEnd

open Codec
open Protocol (nonceLen)
open Effect Effect.Program
open Helper (Crates RequestArgs Prepared Stop HelperEvent)
open Agent (Platform AgentRuntime AgentEvent Failure Deadline)

/-- An invocation of the helper, or a worker of the agent. -/
inductive Party (Invocation Worker : Type)
  | helper (invocation : Invocation)
  | worker (worker : Worker)
  deriving DecidableEq

namespace Party

variable {Invocation Worker : Type}

@[reducible] def Call : Party Invocation Worker -> Type
  | .helper _ => Helper.Call
  | .worker _ => Agent.Call Bytes

@[reducible] def Answer : (party : Party Invocation Worker) -> party.Call -> Type
  | .helper _ => Helper.Call.Answer
  | .worker _ => Agent.Call.Answer

@[reducible] def Error : Party Invocation Worker -> Type
  | .helper _ => Stop
  | .worker _ => Failure

@[reducible] def Result : Party Invocation Worker -> Type
  | .helper _ => Nat
  | .worker _ => Unit

end Party

/-- The messages that have been signed, each with the public key, and the agent. -/
structure World (Worker : Type) where
  signed : List (Bytes × Bytes)
  agent : Agent.World Worker

namespace World

variable {Worker : Type} [DecidableEq Worker]

/-- Record a signature. -/
def sign (world : World Worker) (publicKey message : Bytes) : World Worker :=
  { world with signed := (publicKey, message) :: world.signed }

/-- How the calls of a helper are answered. -/
def servesHelper (publicKeyOf : Bytes -> Bytes) (world : World Worker) :
    (request : Helper.Call) -> request.Answer -> World Worker -> Prop
  | .sign key message, _, after => after = world.sign (publicKeyOf key) message
  | .verify publicKey message _, (valid : Bool), after =>
      (valid = true -> (publicKey, message) ∈ world.signed) ∧ after = world
  | _, _, after => after = world

/-- How the calls of a worker are answered. -/
def servesWorker (agentKey : Bytes) (keys : Agent.KeyPlatform Bytes)
    (limiter : Agent.RateLimiter) (worker : Worker) (world : World Worker) :
    (request : Agent.Call Bytes) -> request.Answer -> World Worker -> Prop
  | .sign message, (signature : Option Bytes), after =>
      after = if signature.isSome then world.sign agentKey message else world
  | .isValidSignature publicKey _ message, (valid : Bool), after =>
      (valid = true -> (publicKey, message) ∈ world.signed) ∧ after = world
  | request, answer, after =>
      ∃ agent, world.agent.serves keys limiter worker request answer agent ∧
        after = { world with agent := agent }

/-- What happens between the calls: the attacker signs with a key that is not the agent's,
or the agent's sessions proceed. -/
inductive Drifts (agentKey : Bytes) : World Worker -> World Worker -> Prop
  | outsider (world : World Worker) {publicKey : Bytes} (message : Bytes) :
      publicKey ≠ agentKey -> Drifts agentKey world (world.sign publicKey message)
  | agent (world : World Worker) {agent : Agent.World Worker} :
      world.agent.Drifts agent -> Drifts agentKey world { world with agent := agent }

end World

/-- The calls of all parties, in order. -/
abbrev History (Invocation Worker : Type) :=
  List (Entry (@Party.Call Invocation Worker) Party.Answer)

/-- A program for each party. -/
abbrev Parties (Invocation Worker : Type) :=
  Pool (@Party.Call Invocation Worker) Party.Answer Party.Error Party.Result

section Network

variable {Invocation Worker : Type} [DecidableEq Invocation] [DecidableEq Worker]

/-- Helpers and workers that share the record of signatures. -/
def network (publicKeyOf : Bytes -> Bytes) (agentKey : Bytes) (keys : Agent.KeyPlatform Bytes)
    (limiter : Agent.RateLimiter) :
    System (Party Invocation Worker) Party.Call Party.Answer (World Worker) where
  serves
    | .helper _, world, request, answer, after =>
        world.servesHelper publicKeyOf request answer after
    | .worker worker, world, request, answer, after =>
        world.servesWorker agentKey keys limiter worker request answer after
  drifts := World.Drifts agentKey

/-- Every helper handles its own request, and every worker its own connection. -/
def parties (crates : Crates) (platform : Platform Bytes) (runtime : AgentRuntime Bytes)
    (rounds : Nat) (args : Invocation -> RequestArgs) (deadline : Worker -> Deadline) :
    Parties Invocation Worker
  | .helper invocation => Helper.runRequest crates rounds (args invocation)
  | .worker worker => Agent.handleServeRequest platform runtime (deadline worker) rounds

/-! ## Who signed -/

variable {publicKeyOf : Bytes -> Bytes} {agentKey : Bytes} {keys : Agent.KeyPlatform Bytes}
variable {limiter : Agent.RateLimiter}

/-- A helper or a worker has signed the message. -/
def SignedBy (history : History Invocation Worker) (message : Bytes) : Prop :=
  (∃ invocation key signature,
    ⟨.sign key message, signature⟩ ∈ traceOf (.helper invocation) history) ∨
  ∃ worker signature, ⟨.sign message, some signature⟩ ∈ traceOf (.worker worker) history

theorem SignedBy.append
    {history : History Invocation Worker}
    {message : Bytes}
    (signed : SignedBy history message)
    (further : History Invocation Worker) :
    SignedBy (history ++ further) message := by
  rcases signed with ⟨invocation, key, signature, member⟩ | ⟨worker, signature, member⟩
  · exact .inl ⟨invocation, key, signature, by simp [member]⟩
  · exact .inr ⟨worker, signature, by simp [member]⟩

/-- Every signature under the key of the agent was made by a helper or a worker. -/
theorem signedBy_of_mem
    {programs pool : Parties Invocation Worker}
    {history : History Invocation Worker}
    {start world : World Worker}
    (run : (network publicKeyOf agentKey keys limiter).Run programs start history pool world)
    (unsigned : start.signed = [])
    {message : Bytes}
    (signed : (agentKey, message) ∈ world.signed) :
    SignedBy history message := by
  induction run with
  | start => simp [unsigned] at signed
  | @step history pool before after party request next answer _ current served
      inductionHypothesis =>
      cases party with
      | helper invocation =>
          cases request
          case sign key text =>
            obtain rfl := served
            rcases List.mem_cons.mp signed with equal | earlier
            · obtain ⟨_, rfl⟩ := Prod.mk.inj equal
              exact .inl ⟨invocation, key, answer, by simp⟩
            · exact (inductionHypothesis earlier).append _
          case verify =>
            obtain ⟨_, rfl⟩ := served
            exact (inductionHypothesis signed).append _
          all_goals
            obtain rfl : after = before := served
            exact (inductionHypothesis signed).append _
      | worker worker =>
          cases request
          case sign text =>
            cases answer with
            | none =>
                obtain rfl : after = before := served
                exact (inductionHypothesis signed).append _
            | some signature =>
                obtain rfl : after = before.sign agentKey text := served
                rcases List.mem_cons.mp signed with equal | earlier
                · obtain ⟨_, rfl⟩ := Prod.mk.inj equal
                  exact .inr ⟨worker, signature, by simp⟩
                · exact (inductionHypothesis earlier).append _
          case isValidSignature =>
            obtain ⟨_, rfl⟩ := served
            exact (inductionHypothesis signed).append _
          all_goals
            obtain ⟨_, _, rfl⟩ := served
            exact (inductionHypothesis signed).append _
  | drift _ drifted inductionHypothesis =>
      cases drifted with
      | outsider message foreign =>
          rcases List.mem_cons.mp signed with equal | earlier
          · exact absurd (Prod.mk.inj equal).1.symm foreign
          · exact inductionHypothesis earlier
      | agent _ => exact inductionHypothesis signed

/-- What a helper trusts was signed before, unless it trusts another key. -/
theorem signedBy_of_verifies
    {programs pool : Parties Invocation Worker}
    {history : History Invocation Worker}
    {start world : World Worker}
    (run : (network publicKeyOf agentKey keys limiter).Run programs start history pool world)
    (unsigned : start.signed = [])
    {invocation : Invocation}
    {message signature : Bytes}
    (verified : ⟨.verify agentKey message signature, true⟩ ∈ traceOf (.helper invocation) history) :
    ∃ earlier later earlierPool earlierWorld,
      history = earlier ++
        ⟨.helper invocation, .verify agentKey message signature, true⟩ :: later ∧
      (network publicKeyOf agentKey keys limiter).Run programs start earlier earlierPool
        earlierWorld ∧
      SignedBy earlier message := by
  obtain ⟨earlier, later, split⟩ := List.append_of_mem (mem_traceOf.mp verified)
  obtain ⟨earlierPool, before, after, earlierRun, served, _⟩ := run.exists_before split
  exact ⟨earlier, later, earlierPool, before, split, earlierRun,
    signedBy_of_mem earlierRun unsigned (served rfl)⟩

/-! ## Approvals -/

variable {crates : Crates} {platform : Platform Bytes} {runtime : AgentRuntime Bytes}
variable {rounds : Nat} {args : Invocation -> RequestArgs} {deadline : Worker -> Deadline}
variable {history : History Invocation Worker} {pool : Parties Invocation Worker}
variable {start world : World Worker}

/-- The helper prepared its request and accepted an approval in response. -/
def Approves
    (crates : Crates)
    (rounds : Nat)
    (args : RequestArgs)
    (trace : List HelperEvent)
    (prepared : Prepared)
    (response : Protocol.SignedAuthResponse) : Prop :=
  ∃ exchanging judging,
    Helper.Reaches crates args trace prepared (exchanging ++ judging) ∧
    Helper.Exchanged crates rounds prepared response exchanging ∧
    Helper.Accepted crates rounds prepared response judging ∧
    response.body.decision = .approved

/-- Byte strings whose digests matter: those that a helper signs and those on which a worker
verifies a signature. -/
def Hashed (history : History Invocation Worker) (bytes : Bytes) : Prop :=
  (∃ invocation key signature,
    ⟨.sign key bytes, signature⟩ ∈ traceOf (.helper invocation) history) ∨
  ∃ worker publicKey signature valid,
    ⟨.isValidSignature publicKey signature bytes, valid⟩ ∈ traceOf (.worker worker) history

/-- No two of the byte strings collide. -/
def NoCollisions (digest : Bytes -> Bytes) (history : History Invocation Worker) : Prop :=
  ∀ first second, Hashed history first -> Hashed history second ->
    digest first = digest second -> first = second

/-- Different invocations draw different nonces. -/
def FreshNonces (history : History Invocation Worker) : Prop :=
  ∀ first second firstNonce secondNonce, first ≠ second ->
    ⟨.fillBytes nonceLen, firstNonce⟩ ∈ traceOf (.helper first) history ->
    ⟨.fillBytes nonceLen, secondNonce⟩ ∈ traceOf (.helper second) history ->
    firstNonce.val ≠ secondNonce.val

/-- Before the helper verified the response, a worker signed it as an approval of the
helper's request, which it had authorized and for which its evaluation had returned
approved. -/
def Backed
    (agentKey : Bytes)
    (platform : Platform Bytes)
    (runtime : AgentRuntime Bytes)
    (rounds : Nat)
    (history : History Invocation Worker)
    (invocation : Invocation)
    (prepared : Prepared)
    (response : Protocol.SignedAuthResponse) : Prop :=
  ∃ earlier later worker past signature next,
    history = earlier ++ ⟨.helper invocation,
      .verify agentKey response.body.encoding response.signature, true⟩ :: later ∧
    traceOf (.worker worker) earlier =
      past ++ ⟨.sign response.body.encoding, some signature⟩ :: next ∧
    ∃ request now body,
      request.body.canonicalBytes = .ok prepared.request.body.encoding ∧
      Agent.Decided platform runtime rounds request .approved past ∧
      Agent.AuthResponseBody.forRequest platform.digest request.body .approved
        (Agent.authMethodOf .approved) now runtime.agentKeyId = .ok body ∧
      body.canonicalBytes = .ok response.body.encoding

omit [DecidableEq Invocation] [DecidableEq Worker] in
/-- Exit code zero means that an approval was accepted. -/
theorem approves_of_exitCode
    {invocation : Invocation}
    {trace : List HelperEvent}
    {result : Except Stop Nat}
    (ended : Ends (Helper.runRequest crates rounds (args invocation)) trace result)
    (approved : Helper.exitCode result = 0) :
    ∃ prepared response, Approves crates rounds (args invocation) trace prepared response := by
  cases result with
  | ok code =>
      obtain ⟨decision, ⟨prepared, exchanging, judging, response, reaches, exchanged, accepted,
        decided⟩, rfl⟩ := Helper.ends_runRequest_ok.mp ended
      have isApproved : decision = .approved := by
        cases decision <;> simp_all [Helper.exitCode, Helper.exitCodeForDecision,
          Helper.exitDenied, Helper.exitUnavailable, Helper.exitCancelled, Helper.exitFailed]
      subst isApproved
      exact ⟨prepared, response, exchanging, judging, reaches, exchanged, accepted, decided⟩
  | error stop =>
      rcases Helper.mapExitToPam_error ended with refused | ⟨fallback, _⟩
      · rw [approved] at refused
        cases refused
      · rw [approved] at fallback
        cases fallback

omit [DecidableEq Invocation] [DecidableEq Worker] in
/-- The calls of a helper that accepted an approval. -/
theorem Approves.calls
    {args : RequestArgs}
    {trace : List HelperEvent}
    {prepared : Prepared}
    {response : Protocol.SignedAuthResponse}
    (approves : Approves crates rounds args trace prepared response) :
    (∃ nonce : { bytes : Bytes // bytes.length = nonceLen },
      (⟨.fillBytes nonceLen, nonce⟩ : HelperEvent) ∈ trace ∧
        response.body.nonce = nonce.val) ∧
    (∃ key, (⟨.sign key prepared.request.body.encoding, prepared.request.signature⟩ :
      HelperEvent) ∈ trace) ∧
    (⟨.verify prepared.agentPubkey response.body.encoding response.signature, true⟩ :
      HelperEvent) ∈ trace ∧
    response.body.Encodable ∧
    prepared.request.body.Encodable ∧
    response.body.requestHash = crates.digest prepared.request.body.encoding := by
  obtain ⟨exchanging, judging, ⟨setup, rfl, prepares⟩, _, accepted, _⟩ := approves
  obtain ⟨verifying, wall, instant, recording, lastInstant, lastWall, rfl, verified, bound, _⟩ :=
    accepted
  obtain ⟨encodable, _, _, _, rfl⟩ := verified
  obtain ⟨requestEncodable, _, sameNonce, sameHash, _⟩ :=
    Protocol.AuthResponseBody.verifyBinding_eq_ok_iff.mp bound
  obtain ⟨origin⟩ := Helper.ends_prepareRequest prepares
  refine ⟨⟨origin.nonce, ?_, sameNonce.trans origin.nonce_eq⟩, ⟨origin.signingKey, ?_⟩, by simp,
    encodable, requestEncodable, sameHash⟩
  · exact List.mem_append_left _ origin.drawn
  · exact List.mem_append_left _ origin.signed

/-- A message that a worker signed and that encodes a response answers a request on which
the worker had decided. -/
theorem signed_by_worker
    (run : (network publicKeyOf agentKey keys limiter).Run
      (parties crates platform runtime rounds args deadline) start history pool world)
    {worker : Worker}
    {response : Protocol.AuthResponseBody}
    (encodable : response.Encodable)
    {signature : Bytes}
    (signed : ⟨.sign response.encoding, some signature⟩ ∈ traceOf (.worker worker) history) :
    ∃ past next request now body,
      traceOf (.worker worker) history =
        past ++ ⟨.sign response.encoding, some signature⟩ :: next ∧
      Agent.Decided platform runtime rounds request body.decision past ∧
      Agent.AuthResponseBody.forRequest platform.digest request.body body.decision
        (Agent.authMethodOf body.decision) now runtime.agentKeyId = .ok body ∧
      body.canonicalBytes = .ok response.encoding ∧
      body.toProtocol = response := by
  obtain ⟨past, next, split⟩ := List.append_of_mem signed
  obtain ⟨allowed, _⟩ := Agent.meets_handleServeRequest.steps (run.steps (.worker worker))
    fun _ _ _ _ => trivial
  obtain ⟨request, decision, now, body, decided, built, encoded⟩ := allowed past _ next split
  obtain rfl := (Agent.forRequest_answers built).2
  obtain ⟨_, canonical⟩ := Agent.AuthResponseBody.canonicalBytes_eq_ok_iff.mp encoded
  obtain ⟨bodyEncodable, sameEncoding⟩ :=
    Protocol.AuthResponseBody.canonicalBytes_eq_ok_iff.mp canonical
  have same := Protocol.AuthResponseBody.selfDelimiting_encoding body.toProtocol response
    bodyEncodable encodable [] [] (by simp [sameEncoding])
  exact ⟨past, next, request, now, body, split, decided, built, encoded, same.1⟩

/-- No helper signs the encoding of a response, whichever key it uses. -/
theorem not_signed_by_helper
    (run : (network publicKeyOf agentKey keys limiter).Run
      (parties crates platform runtime rounds args deadline) start history pool world)
    {invocation : Invocation}
    (response : Protocol.AuthResponseBody)
    {key signature : Bytes} :
    ⟨.sign key response.encoding, signature⟩ ∉ traceOf (.helper invocation) history := by
  intro signed
  obtain ⟨request, encoded⟩ :=
    Helper.runRequest_signs (run.steps (.helper invocation)) signed
  obtain ⟨_, same⟩ := Protocol.AuthRequestBody.canonicalBytes_eq_ok_iff.mp encoded
  exact Protocol.encodings_differ request response [] [] (by simp [same])

/-- The request that a worker answered is the one whose digest its response carries. -/
theorem answered_request
    {worker : Worker}
    {past : List (AgentEvent Bytes)}
    (included : past ⊆ traceOf (Party.worker worker) history)
    {request : Agent.SignedAuthRequest}
    {decision : Agent.Decision}
    (decided : Agent.Decided platform runtime rounds request decision past)
    {body : Agent.AuthResponseBody}
    (answers : Agent.Answers platform.digest request.body body)
    (noCollisions : NoCollisions platform.digest history)
    {bytes : Bytes}
    (hashed : Hashed history bytes)
    (sameHash : body.requestHash = platform.digest bytes) :
    request.body.canonicalBytes = .ok bytes := by
  obtain ⟨⟨reading, later, payload, verifier, encoding, now, rfl, _, _, _, encoded, _⟩, _⟩ :=
    decided
  obtain ⟨_, _, digested, _⟩ := answers
  have verified : Hashed history encoding :=
    .inr ⟨worker, verifier.publicKey, request.signature, true, included (by simp)⟩
  have hash_eq : platform.digest encoding = body.requestHash := by
    rw [Agent.AuthRequestBody.sha256, encoded] at digested
    exact Except.ok.inj digested
  rw [← noCollisions encoding bytes verified hashed (hash_eq.trans sameHash)]
  exact encoded

/-- An approval that the helper accepted under the key of the agent is backed. -/
theorem backed_of_approves
    (sameDigest : platform.digest = crates.digest)
    (run : (network publicKeyOf agentKey keys limiter).Run
      (parties crates platform runtime rounds args deadline) start history pool world)
    (unsigned : start.signed = [])
    (noCollisions : NoCollisions crates.digest history)
    {invocation : Invocation}
    {prepared : Prepared}
    {response : Protocol.SignedAuthResponse}
    (approves : Approves crates rounds (args invocation) (traceOf (Party.helper invocation) history)
      prepared response)
    (pinned : prepared.agentPubkey = agentKey) :
    Backed agentKey platform runtime rounds history invocation prepared response := by
  obtain ⟨_, ⟨key, requested⟩, verified, encodable, _, sameHash⟩ := approves.calls
  obtain ⟨_, _, _, _, _, approved⟩ := approves
  rw [pinned] at verified
  obtain ⟨earlier, later, earlierPool, earlierWorld, split, earlierRun, signedBy⟩ :=
    signedBy_of_verifies run unsigned verified
  rcases signedBy with ⟨other, otherKey, signature, signed⟩ | ⟨worker, signature, signed⟩
  · exact absurd signed (not_signed_by_helper earlierRun response.body)
  · obtain ⟨past, next, request, now, body, worked, decided, built, encoded, same⟩ :=
      signed_by_worker earlierRun encodable signed
    have isApproved : body.decision = .approved := by
      have translated : body.decision.toProtocol = .approved := by
        rw [← approved, ← same]
        rfl
      cases decision : body.decision <;> simp_all [Agent.Decision.toProtocol]
    rw [isApproved] at decided built
    have included : past ⊆ traceOf (Party.worker worker) history := by
      intro event member
      rw [split, traceOf_append, worked]
      simp [member]
    refine ⟨earlier, later, worker, past, signature, next, split, worked, request, now, body, ?_,
      decided, built, encoded⟩
    refine answered_request included decided (Agent.forRequest_answers built).1
      (sameDigest ▸ noCollisions) (.inl ⟨invocation, key, _, requested⟩) ?_
    rw [sameDigest, ← sameHash, ← same]
    rfl

/-- End-to-end agreement. Any number of helpers and workers of one agent run together over
a network that an attacker controls. A helper that exits with code zero has accepted an
approval of its own request. If it pins the key of the agent, a worker had signed that
approval before, after it had verified the host's signature on the very bytes of the
request and after its evaluation had returned approved. No response makes two invocations
exit with code zero. A host that shares its key with the agent changes none of this. -/
theorem runRequest_agreement
    (publicKeyOf : Bytes -> Bytes)
    (agentKey : Bytes)
    (crates : Crates)
    (platform : Platform Bytes)
    (runtime : AgentRuntime Bytes)
    (rounds : Nat)
    (args : Invocation -> RequestArgs)
    (deadline : Worker -> Deadline)
    (agent : Agent.World Worker)
    (sameDigest : platform.digest = crates.digest)
    (run : (network publicKeyOf agentKey platform.keys runtime.rateLimiter).Run
      (parties crates platform runtime rounds args deadline) ⟨[], agent⟩ history pool world)
    (noCollisions : NoCollisions crates.digest history)
    (freshNonces : FreshNonces history) :
    (∀ invocation result, pool (.helper invocation) = .done result ->
      Helper.exitCode result = 0 ->
      ∃ prepared response,
        Approves crates rounds (args invocation) (traceOf (Party.helper invocation) history) prepared
          response ∧
        (prepared.agentPubkey = agentKey ->
          Backed agentKey platform runtime rounds history invocation prepared response)) ∧
    ∀ first second firstPrepared secondPrepared firstResponse secondResponse,
      Approves crates rounds (args first) (traceOf (Party.helper first) history) firstPrepared
        firstResponse ->
      Approves crates rounds (args second) (traceOf (Party.helper second) history) secondPrepared
        secondResponse ->
      firstResponse.body = secondResponse.body ->
      first = second := by
  constructor
  · intro invocation result finished approved
    have ended : Ends (Helper.runRequest crates rounds (args invocation))
        (traceOf (Party.helper invocation) history) result := by
      have steps := run.steps (.helper invocation)
      rwa [finished] at steps
    obtain ⟨prepared, response, approves⟩ := approves_of_exitCode ended approved
    exact ⟨prepared, response, approves,
      backed_of_approves sameDigest run rfl noCollisions approves⟩
  · intro first second firstPrepared secondPrepared firstResponse secondResponse firstApproves
      secondApproves sameBody
    obtain ⟨⟨firstNonce, firstDrawn, firstEqual⟩, _⟩ := firstApproves.calls
    obtain ⟨⟨secondNonce, secondDrawn, secondEqual⟩, _⟩ := secondApproves.calls
    by_contra different
    apply freshNonces first second firstNonce secondNonce different firstDrawn secondDrawn
    rw [← firstEqual, ← secondEqual, sameBody]

end Network

/-! ## A run that ends in an approval -/

open Agent (webPlatform webRuntime webRequest webRequestJson webResponseJson webRequestHash)

/-- The libraries of the helper, as far as this run uses them. -/
def webCrates : Crates where
  digest _ := webRequestHash
  configFromToml _ := none
  requestToJson _ := webRequestJson
  responseFromJson _ := some {
    body := {
      protocolVersion := 1
      requestId := "req-1000-7"
      nonce := List.replicate 32 5
      requestHash := webRequestHash
      linuxHostId := "web"
      pamService := "sudo"
      pamUser := "ada"
      decision := .approved
      authMethod := .biometricOrWatch
      createdAtMs := 1000
      expiresAtMs := 11000
      agentKeyId := "agent-key-1"
      alg := .ed25519
      errorCode := none
      errorMessage := none
    }
    signature := List.replicate 64 9
  }
  isVerifyingKey _ := true

/-- The key of the host `web`, which is the key of the agent as well. -/
def webKey : Bytes := List.replicate 32 1

def webArgs : RequestArgs where
  requireRootOwned := false
  config := none
  socket := some (Protocol.utf8 "/run/agent.sock")
  keyHex := some "0101010101010101010101010101010101010101010101010101010101010101"
  keyFile := none
  agentPubkeyHex := some "0101010101010101010101010101010101010101010101010101010101010101"
  agentPubkeyFile := none
  keyId := none
  hostId := some "web"
  hostname := some "web"
  service := none
  user := "ada"
  ruser := none
  rhost := none
  tty := none
  sudoCommand := none
  timeoutMs := none
  allowedFutureSkewMs := none
  replayCacheDir := none

/-- What the helper reads of the frame of the response. -/
def webReceived (limit : Nat) : { bytes : Bytes // bytes.length ≤ limit } :=
  if body : webResponseJson.length ≤ limit then ⟨webResponseJson, body⟩
  else if header : (bigEndian 4 webResponseJson.length).length ≤ limit then
    ⟨bigEndian 4 webResponseJson.length, header⟩
  else ⟨[], Nat.zero_le _⟩

/-- Surroundings of the helper in which everything works at once and no time passes. -/
def World.respondHelper (world : World Unit) :
    (request : Helper.Call) -> request.Answer × World Unit
  | .wallClock => (some (1000 : UInt64), world)
  | .instant => ((0 : Nat), world)
  | .processId => ((7 : UInt32), world)
  | .fillBytes length => (⟨List.replicate length 5, List.length_replicate⟩, world)
  | .currentDir => (.error 2, world)
  | .openRoot => (.error 2, world)
  | .openat _ _ _ => (.error 2, world)
  | .createat _ _ => (.failed 2, world)
  | .fstat _ => (.error 2, world)
  | .read _ _ _ => (.error 2, world)
  | .write _ _ => (.error 2, world)
  | .unlinkat _ _ => ((), world)
  | .opendir _ => (.error 2, world)
  | .readdir _ => (none, world)
  | .socket => (.ok (), world)
  | .setCloseOnExec => (.ok (), world)
  | .setNonblocking => (.ok (), world)
  | .connect _ => (.connected, world)
  | .takeError => (.ok none, world)
  | .poll _ _ => (.ready false, world)
  | .sleep _ => ((), world)
  | .recv limit => (.transferred (webReceived limit), world)
  | .send bytes => (.transferred (Fin.last bytes.length), world)
  | .sign key message => (List.replicate 64 7, world.sign key message)
  | .verify publicKey message _ => (decide ((publicKey, message) ∈ world.signed), world)

/-- Surroundings of the worker in which everything works at once and no time passes. -/
def World.respondWorker (world : World Unit) :
    (request : Agent.Call Bytes) -> request.Answer × World Unit
  | .sign message => (some (List.replicate 64 9), world.sign webKey message)
  | .isValidSignature publicKey _ message =>
      (decide ((publicKey, message) ∈ world.signed), world)
  | request =>
      let answered := world.agent.respond () request
      (answered.1, { world with agent := answered.2 })

theorem World.servesHelper_respond (world : World Unit) (request : Helper.Call) :
    world.servesHelper id request (world.respondHelper request).1
      (world.respondHelper request).2 := by
  cases request
  case verify publicKey message signature =>
    exact ⟨fun valid => by simpa [World.respondHelper] using valid, rfl⟩
  all_goals rfl

theorem World.servesWorker_respond (world : World Unit) (request : Agent.Call Bytes) :
    world.servesWorker webKey webPlatform.keys webRuntime.rateLimiter () request
      (world.respondWorker request).1 (world.respondWorker request).2 := by
  cases request
  case sign => rfl
  case isValidSignature => exact ⟨of_decide_eq_true, rfl⟩
  all_goals
    simp only [World.respondWorker]
    exact ⟨_, world.agent.serves_respond () _, rfl⟩

def webHelper : Helper.Routine Stop Nat :=
  Helper.runRequest webCrates 3 webArgs

/-- The helper up to the last byte of its request. -/
def webRequesting : List HelperEvent × Helper.Routine Stop Nat × World Unit :=
  System.follow World.respondHelper 16 webHelper ⟨[], .initial 0 fun _ => []⟩

/-- The worker up to the start of the session. -/
def webAsking : List (AgentEvent Bytes) × Agent.Routine Bytes Unit × World Unit :=
  System.follow World.respondWorker 27 Agent.webWorker webRequesting.2.2

/-- The user approves. -/
def webAnswered : World Unit :=
  { webAsking.2.2 with
    agent := webAsking.2.2.agent.setSession () (some ⟨some webRequest.body, [.approved]⟩) }

/-- The worker up to the last byte of its response. -/
def webAnswering : List (AgentEvent Bytes) × Agent.Routine Bytes Unit × World Unit :=
  System.follow World.respondWorker 30 webAsking.2.1 webAnswered

/-- The helper up to its end. -/
def webJudging : List HelperEvent × Helper.Routine Stop Nat × World Unit :=
  System.follow World.respondHelper 30 webRequesting.2.1 webAnswering.2.2

/-- The signing bytes of the request. -/
def webEncoding : Bytes := webRequest.body.toProtocol.encoding

/-- The byte string of a call whose digest matters. -/
def hashedBytes {Invocation Worker : Type} :
    Entry (@Party.Call Invocation Worker) Party.Answer -> Option Bytes
  | ⟨.helper _, .sign _ bytes, _⟩ => some bytes
  | ⟨.worker _, .isValidSignature _ _ bytes, _⟩ => some bytes
  | _ => none

theorem Hashed.mem
    {Invocation Worker : Type}
    [DecidableEq Invocation]
    [DecidableEq Worker]
    {history : History Invocation Worker}
    {bytes : Bytes}
    (hashed : Hashed history bytes) :
    bytes ∈ history.filterMap hashedBytes := by
  rw [List.mem_filterMap]
  rcases hashed with ⟨_, _, _, member⟩ | ⟨_, _, _, _, member⟩
  · exact ⟨_, mem_traceOf.mp member, rfl⟩
  · exact ⟨_, mem_traceOf.mp member, rfl⟩

theorem noCollisions_of_same
    {digest : Bytes -> Bytes}
    {history : History Unit Unit}
    {bytes : Bytes}
    (same : ∀ hashed ∈ history.filterMap hashedBytes, hashed = bytes) :
    NoCollisions digest history := by
  intro first second firstHashed secondHashed _
  rw [same first firstHashed.mem, same second secondHashed.mem]

/-- A single invocation shares its nonce with no other. -/
theorem freshNonces_single (history : History Unit Unit) : FreshNonces history :=
  fun first second _ _ different => absurd (Subsingleton.elim first second) different

def webHistory : History Unit Unit :=
  webRequesting.1.map (Entry.mk (.helper ())) ++ webAsking.1.map (Entry.mk (.worker ())) ++
    webAnswering.1.map (Entry.mk (.worker ())) ++ webJudging.1.map (Entry.mk (.helper ()))

def webParties : Parties Unit Unit :=
  parties webCrates webPlatform webRuntime 3 (fun _ => webArgs) fun _ => ⟨15000000000⟩

def webNetwork : System (Party Unit Unit) Party.Call Party.Answer (World Unit) :=
  network id webKey webPlatform.keys webRuntime.rateLimiter

/-- The helper sends its request, the worker asks the user, who approves, and both go on. -/
theorem run_turns
    {respond : World Unit -> (request : Helper.Call) -> request.Answer × World Unit}
    {body : Agent.AuthRequestBody}
    (processes : Parties Unit Unit)
    (first : World Unit)
    (requests prompts answers verdicts : Nat)
    (requesting judging : List HelperEvent × Helper.Routine Stop Nat × World Unit)
    (asking answering : List (AgentEvent Bytes) × Agent.Routine Bytes Unit × World Unit)
    (serves : ∀ world request, World.servesHelper id world request (respond world request).1
      (respond world request).2)
    (requested : System.follow respond requests (processes (.helper ())) first = requesting)
    (prompted : System.follow World.respondWorker prompts (processes (.worker ())) requesting.2.2 =
      asking)
    (asks : asking.2.2.agent.sessions () = some ⟨some body, []⟩)
    (answered : System.follow World.respondWorker answers asking.2.1
      { asking.2.2 with
        agent := asking.2.2.agent.setSession () (some ⟨some body, [.approved]⟩) } = answering)
    (judged : System.follow respond verdicts requesting.2.1 answering.2.2 = judging) :
    ∃ pool, pool (.helper ()) = judging.2.1 ∧
      webNetwork.Run processes first
        (requesting.1.map (Entry.mk (.helper ())) ++ asking.1.map (Entry.mk (.worker ())) ++
          answering.1.map (Entry.mk (.worker ())) ++ judging.1.map (Entry.mk (.helper ())))
        pool judging.2.2 := by
  have helpers (world : World Unit) (request : Party.Call (.helper () : Party Unit Unit)) :
      webNetwork.serves (.helper ()) world request (respond world request).1
        (respond world request).2 :=
    serves world request
  have workers (world : World Unit) (request : Party.Call (.worker () : Party Unit Unit)) :
      webNetwork.serves (.worker ()) world request (world.respondWorker request).1
        (world.respondWorker request).2 :=
    world.servesWorker_respond request
  subst requested prompted answered judged
  have begins : webNetwork.Run processes first [] processes first := .start
  have requestSent := System.Run.follow helpers begins requests
  have userAsked := System.Run.follow workers requestSent prompts
  have userAnswered := userAsked.drift
    (World.Drifts.agent _ (.completes _ .approved asks (by simp)))
  have responded := System.Run.follow workers userAnswered answers
  have decided := System.Run.follow helpers responded verdicts
  exact ⟨_, rfl, decided⟩

set_option maxRecDepth 8000 in
/-- The helper and the worker take turns, and the user approves in between. -/
theorem webNetwork_run :
    ∃ pool, pool (.helper ()) = .done (.ok 0) ∧
      webNetwork.Run webParties ⟨[], .initial 0 fun _ => []⟩ webHistory pool webJudging.2.2 :=
  run_turns webParties ⟨[], .initial 0 fun _ => []⟩ 16 27 30 30 webRequesting webJudging webAsking
    webAnswering World.servesHelper_respond rfl rfl rfl rfl rfl

set_option maxRecDepth 8000 in
/-- The helper of the host `web` exits with code zero, with the agent's approval behind it.
The host and the agent have the same key. -/
theorem runRequest_agreement_approval :
    ∃ prepared response,
      Approves webCrates 3 webArgs (traceOf (Party.helper ()) webHistory) prepared response ∧
        (prepared.agentPubkey = webKey ->
          Backed webKey webPlatform webRuntime 3 webHistory () prepared response) := by
  obtain ⟨pool, finished, run⟩ := webNetwork_run
  have hashes : webHistory.filterMap hashedBytes = [webEncoding, webEncoding] := rfl
  have same : ∀ hashed ∈ webHistory.filterMap hashedBytes, hashed = webEncoding := by
    rw [hashes]
    simp
  exact (runRequest_agreement id webKey webCrates webPlatform webRuntime 3 (fun _ => webArgs)
    (fun _ => ⟨15000000000⟩) _ rfl run (noCollisions_of_same same)
    (freshNonces_single webHistory)).1 () _ finished rfl

end EndToEnd
end MacosAuth
