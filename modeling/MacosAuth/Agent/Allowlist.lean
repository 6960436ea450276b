import MacosAuth.Agent.Workers

/-!
# The allowlist at the gate

A worker that is past host lookup and signature verification has received a request whose
signature verifies under the key of an entry of the hosts list. It is the entry of the
request's host, or else the entry with the wildcard as its host id, if the list has one.
-/

namespace MacosAuth
namespace Agent

open Codec
open Effect Effect.Program

variable {Key : Type}

/-- Calls up to the verification of the signature. -/
def IsChecking : Call Key -> Prop
  | .isValidSignature _ _ _ => True
  | request => IsReading request

/-- The request has arrived, its host has a verifier, and its signature verifies under the
key of that verifier. -/
def Passed
    (platform : Platform Key)
    (verifiers : List (HostVerifier Key))
    (request : SignedAuthRequest)
    (verifier : HostVerifier Key)
    (past : List (AgentEvent Key)) : Prop :=
  ∃ reading later payload bytes,
    past = reading ++
      ⟨.isValidSignature verifier.publicKey request.signature bytes, true⟩ :: later ∧
    received reading = lengthPrefixed 4 payload ∧
    platform.requestFromJson payload = some request ∧
    platform.keys.verifierFor verifiers request.body.linuxHostId = some verifier ∧
    request.body.canonicalBytes = .ok bytes

theorem Passed.append
    {platform : Platform Key}
    {verifiers : List (HostVerifier Key)}
    {request : SignedAuthRequest}
    {verifier : HostVerifier Key}
    {past : List (AgentEvent Key)}
    (passed : Passed platform verifiers request verifier past)
    (further : List (AgentEvent Key)) :
    Passed platform verifiers request verifier (past ++ further) := by
  obtain ⟨reading, later, payload, bytes, rfl, facts⟩ := passed
  exact ⟨reading, later ++ further, payload, bytes, by simp, facts⟩

/-- An authorized request has passed. -/
theorem Authorized.passed
    {platform : Platform Key}
    {runtime : AgentRuntime Key}
    {request : SignedAuthRequest}
    {past : List (AgentEvent Key)}
    (authorized : Authorized platform runtime request past) :
    ∃ verifier, Passed platform runtime.hostVerifiers request verifier past := by
  obtain ⟨reading, later, payload, verifier, bytes, now, rfl, arrived, decoded, known, encoded,
    _⟩ := authorized
  exact ⟨verifier, reading, _, payload, bytes, rfl, arrived, decoded, known, encoded⟩

/-- Nothing but checks before a request has passed. -/
def gate (platform : Platform Key) (verifiers : List (HostVerifier Key)) :
    Contract (Call Key) Call.Answer where
  relies _ _ := True
  allows past request := IsChecking request ∨
    ∃ passing verifier, Passed platform verifiers passing verifier past
  givesUp _ := True

section Gate

variable {platform : Platform Key} {runtime : AgentRuntime Key}
variable {deadline : Deadline} {rounds : Nat}

/-- Once a request has passed, anything is allowed. -/
theorem meets_gate_of_passed
    {α : Type}
    {routine : Routine Key α}
    {past : List (AgentEvent Key)}
    (passed : ∃ request verifier, Passed platform runtime.hostVerifiers request verifier past) :
    routine.Meets (gate platform runtime.hostVerifiers) past fun later _ =>
      ∃ request verifier, Passed platform runtime.hostVerifiers request verifier later := by
  induction routine generalizing past with
  | done result => exact passed
  | exhausted => trivial
  | call request next inductionHypothesis =>
      refine ⟨.inr passed, fun answer _ => inductionHypothesis answer ?_⟩
      obtain ⟨passing, verifier, passes⟩ := passed
      exact ⟨passing, verifier, passes.append _⟩

theorem isChecking_of_isReading
    (request : Call Key)
    (reading : IsReading request) :
    IsChecking request := by
  cases request <;> trivial

theorem checking_meets
    {α : Type}
    {routine : Routine Key α}
    {past : List (AgentEvent Key)}
    (within : routine.Within IsChecking) :
    routine.Meets (gate platform runtime.hostVerifiers) past fun later result =>
      ∃ trace, later = past ++ trace ∧ Ends routine trace result :=
  within.meets (fun _ _ => .inl) fun _ => trivial

/-- The verification of a signature is the gate. -/
theorem meets_gate_verifyRequest
    {request : SignedAuthRequest}
    {verifier : HostVerifier Key}
    {past : List (AgentEvent Key)}
    {payload : Bytes}
    (arrived : received past = lengthPrefixed 4 payload)
    (decoded : platform.requestFromJson payload = some request)
    (known : platform.keys.verifierFor runtime.hostVerifiers request.body.linuxHostId =
      some verifier) :
    (verifyRequest request verifier.publicKey runtime.allowedFutureSkewMs).Meets
      (gate platform runtime.hostVerifiers) past fun later result => result = .ok () ->
        ∃ request verifier, Passed platform runtime.hostVerifiers request verifier later := by
  refine Meets.bind (checking_meets (within_done _)) ?_ fun _ _ _ contra => nomatch contra
  rintro _ bytes ⟨trace, rfl, lifted⟩
  obtain ⟨rfl, encoded⟩ := ends_liftExcept_ok.mp lifted
  rw [List.append_nil]
  refine ⟨.inl trivial, fun valid _ => ?_⟩
  cases valid with
  | false => exact fun contra => nomatch contra
  | true =>
      have passed : Passed platform runtime.hostVerifiers request verifier
          (past ++ [⟨.isValidSignature verifier.publicKey request.signature bytes, true⟩]) :=
        ⟨past, [], payload, bytes, rfl, arrived, decoded, known, encoded⟩
      exact (meets_gate_of_passed ⟨request, verifier, passed⟩).mono fun _ _ passes _ => passes

/-- A request is received through the gate. -/
theorem meets_gate_receiveRequest :
    (receiveRequest platform runtime deadline rounds).Meets
      (gate platform runtime.hostVerifiers) [] fun later result => ∀ value, result = .ok value ->
        ∃ request verifier, Passed platform runtime.hostVerifiers request verifier later := by
  refine Meets.bind (checking_meets (within_capped trivial _ _)) ?_
    fun _ _ _ _ contra => nomatch contra
  rintro capping readDeadline ⟨_, rfl, capped⟩
  have reads := within_readJSONFrame platform readDeadline rounds
  refine Meets.bind (checking_meets (reads.mono isChecking_of_isReading)) ?_
    fun _ _ _ _ contra => nomatch contra
  rintro _ request ⟨reading, rfl, read⟩
  obtain ⟨payload, arrived, decoded⟩ := ends_readJSONFrame read
  have silent : received capping = [] :=
    received_timing ((within_capped trivial deadline 2000).calls capped)
  split
  · exact fun _ contra => nomatch contra
  · rename_i verifier known
    refine Meets.bind (meets_gate_verifyRequest (by simp [silent, arrived]) decoded known) ?_
      fun _ _ _ _ contra => nomatch contra
    exact fun _ _ passed _ _ => passed rfl

/-- Every worker keeps to the gate. -/
theorem meets_gate_handleServeRequest :
    (handleServeRequest platform runtime deadline rounds).Meets
      (gate platform runtime.hostVerifiers) [] fun _ _ => True := by
  refine Meets.bind meets_gate_receiveRequest ?_ fun _ _ _ => trivial
  exact fun _ value passed =>
    (meets_gate_of_passed (passed value rfl)).mono fun _ _ _ => trivial

end Gate

/-! ## Listed hosts -/

/-- The hosts list has an entry with this key for the host: the entry of the host itself, or
the wildcard entry if the host has none. -/
def ListedFor
    (keys : KeyPlatform Key)
    (hosts : List AllowedHost)
    (hostId : String)
    (publicKey : Key) : Prop :=
  ∃ host ∈ hosts, keys.hostKey host = .ok publicKey ∧
    (keys.same host.hostId hostId = true ∨
      keys.same host.hostId "*" = true ∧
        ∀ other ∈ hosts, keys.same other.hostId hostId = false)

/-- What the lookup finds is listed. -/
theorem listedFor_of_verifierFor
    {keys : KeyPlatform Key}
    {hosts : List AllowedHost}
    {verifiers : List (HostVerifier Key)}
    (matching : List.Forall₂ keys.Matches hosts verifiers)
    {hostId : String}
    {verifier : HostVerifier Key}
    (known : keys.verifierFor verifiers hostId = some verifier) :
    ListedFor keys hosts hostId verifier.publicKey := by
  unfold KeyPlatform.verifierFor at known
  split at known
  · rename_i own found
    obtain rfl := Option.some.inj known
    obtain ⟨host, member, named, read⟩ := KeyPlatform.exists_host_of_subscript matching found
    exact ⟨host, member, read, .inl named⟩
  · rename_i absent
    obtain ⟨host, member, named, read⟩ := KeyPlatform.exists_host_of_subscript matching known
    refine ⟨host, member, read, .inr ⟨named, fun other otherMember => ?_⟩⟩
    by_contra named
    obtain ⟨entry, entryMember, name, _⟩ :=
      KeyPlatform.exists_verifier_of_mem matching otherMember
    refine List.find?_eq_none.mp absent entry entryMember ?_
    rw [name]
    simpa using named

/-- The allowlist is exact, the wildcard entry apart. Whatever the peer sends, a worker of
an agent with a hosts list makes no call beyond the verification of a signature unless
a request has arrived whose signature verified under the key of an entry that is listed
for its host. The rate limiter is asked and a session is started only for such a
request. -/
theorem handleServeRequest_allowlisted
    (platform : Platform Key)
    (runtime : AgentRuntime Key)
    (deadline : Deadline)
    (rounds : Nat)
    {config : AgentConfig}
    {hosts : List AllowedHost}
    (listed : config.hosts = some hosts)
    (nonempty : hosts ≠ [])
    (built : platform.keys.hostVerifiers config = .ok runtime.hostVerifiers)
    {trace : List (AgentEvent Key)}
    {rest : Routine Key Unit}
    (steps : Steps (handleServeRequest platform runtime deadline rounds) trace rest)
    {before after : List (AgentEvent Key)}
    {event : AgentEvent Key}
    (split : trace = before ++ event :: after) :
    (¬IsChecking event.call ->
      ∃ request verifier, Passed platform runtime.hostVerifiers request verifier before ∧
        ListedFor platform.keys hosts request.body.linuxHostId verifier.publicKey) ∧
    ((IsSession event.call ∨ ∃ body, event.call = .limiterAllow body) ->
      ∃ request verifier, Passed platform runtime.hostVerifiers request verifier before ∧
        ListedFor platform.keys hosts request.body.linuxHostId verifier.publicKey ∧
        ∀ body, (event.call = .limiterAllow body ∨
          ∃ confirmation, event.call = .sessionStart body confirmation) ->
            request.body = body) := by
  obtain ⟨matching, _⟩ := (platform.keys.hostVerifiers_of_hosts listed nonempty).mp built
  have listedFor {request : SignedAuthRequest} {verifier : HostVerifier Key}
      (passed : Passed platform runtime.hostVerifiers request verifier before) :
      ListedFor platform.keys hosts request.body.linuxHostId verifier.publicKey := by
    obtain ⟨_, _, _, _, _, _, _, known, _⟩ := passed
    exact listedFor_of_verifierFor matching known
  constructor
  · intro beyond
    have allowed := (meets_gate_handleServeRequest.steps steps fun _ _ _ _ => trivial).1
      before event after split
    obtain ⟨request, verifier, passed⟩ := allowed.resolve_left beyond
    exact ⟨request, verifier, passed, listedFor passed⟩
  · intro guarded
    have allowed := (meets_handleServeRequest.steps steps fun _ _ _ _ => trivial).1
      before event after split
    obtain ⟨request, authorized, same⟩ := authorized_of_allows allowed guarded
    obtain ⟨verifier, passed⟩ := authorized.passed
    exact ⟨request, verifier, passed, listedFor passed, same⟩

/-! ## Two lists -/

/-- A list with one entry. -/
def soleConfig (hostId : String) : AgentConfig :=
  SampleHosts.config [SampleHosts.inlineHost hostId "key"]

def soleRuntime (hostId : String) : AgentRuntime Bytes :=
  { webRuntime with hostVerifiers := [⟨hostId, Protocol.utf8 "key"⟩] }

/-- A worker serves the request of the host `web` up to the start of the session. -/
def soleAsking (hostId : String) : List (AgentEvent Bytes) × Routine Bytes Unit × World Unit :=
  System.follow (fun world => world.respond ()) 27
    (handleServeRequest webPlatform (soleRuntime hostId) ⟨15000000000⟩ 3) (.initial 0 fun _ => [])

set_option maxRecDepth 4000 in
/-- A list whose only entry is the wildcard: the host `web` is not listed, and its request
starts a session. -/
theorem handleServeRequest_wildcard :
    ∃ before rest,
      (soleConfig "*").hosts = some [SampleHosts.inlineHost "*" "key"] ∧
      webPlatform.keys.hostVerifiers (soleConfig "*") = .ok (soleRuntime "*").hostVerifiers ∧
      webPlatform.keys.same "*" webRequest.body.linuxHostId = false ∧
      Steps (handleServeRequest webPlatform (soleRuntime "*") ⟨15000000000⟩ 3)
        (before ++ [⟨.sessionStart webRequest.body true, ()⟩]) rest := by
  refine ⟨(soleAsking "*").1.dropLast, (soleAsking "*").2.1, rfl, rfl, by decide, ?_⟩
  exact System.steps_follow (fun world : World Unit => world.respond ()) 27 _ _

set_option maxRecDepth 4000 in
/-- The host `web` is listed, and its request starts a session. -/
theorem handleServeRequest_allowlisted_web :
    ∃ request verifier,
      Passed webPlatform (soleRuntime "web").hostVerifiers request verifier
        (soleAsking "web").1.dropLast ∧
      ListedFor webPlatform.keys [SampleHosts.inlineHost "web" "key"] request.body.linuxHostId
        verifier.publicKey := by
  have steps := System.steps_follow (fun world : World Unit => world.respond ()) 27
    (handleServeRequest webPlatform (soleRuntime "web") ⟨15000000000⟩ 3) (.initial 0 fun _ => [])
  have split : (soleAsking "web").1 = (soleAsking "web").1.dropLast ++
      ⟨.sessionStart webRequest.body true, ()⟩ :: [] := rfl
  have listed : (soleConfig "web").hosts = some [SampleHosts.inlineHost "web" "key"] := rfl
  exact (handleServeRequest_allowlisted webPlatform (soleRuntime "web") ⟨15000000000⟩ 3 listed
    (by simp) rfl steps split).1 id

end Agent
end MacosAuth
