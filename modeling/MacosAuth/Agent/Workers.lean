import MacosAuth.Agent.Safety

/-!
# Workers of one agent

Any number of workers serve their connections at the same time. They share the rate
limiter, the authentication slot and the monotonic clock, and each has a session of its
own. Sessions complete whenever they like, as often as they like; the first completion is
the result. Peers, wall clocks and signature checks answer without restriction.
-/

namespace MacosAuth
namespace Agent

open Codec
open Protocol (utf8)
open Effect Effect.Program

variable {Key Worker : Type} [DecidableEq Worker]

/-- An authentication session: the request for which it was started, and the decisions
with which it has called its completion. -/
structure Session where
  request : Option AuthRequestBody
  completions : List Decision

/-- The value of the result cell: the first completion. -/
def Session.result (session : Session) : Option Decision :=
  session.completions.head?

/-- What the workers of an agent share. -/
structure World (Worker : Type) where
  uptimeNs : UInt64
  limiterEvents : LimiterEvents
  slots : Nat
  cancelled : Worker -> Bool
  sessions : Worker -> Option Session

/-- An agent without connections. -/
def World.initial (uptimeNs : UInt64) (limiterEvents : LimiterEvents) : World Worker where
  uptimeNs := uptimeNs
  limiterEvents := limiterEvents
  slots := 1
  cancelled _ := false
  sessions _ := none

/-- The world with another session for a worker. -/
def World.setSession (world : World Worker) (worker : Worker) (session : Option Session) :
    World Worker :=
  { world with sessions := Function.update world.sessions worker session }

@[simp] theorem World.setSession_same
    (world : World Worker)
    (worker : Worker)
    (session : Option Session) :
    (world.setSession worker session).sessions worker = session :=
  Function.update_self ..

theorem World.setSession_other
    (world : World Worker)
    {worker other : Worker}
    (different : other ≠ worker)
    (session : Option Session) :
    (world.setSession other session).sessions worker = world.sessions worker :=
  Function.update_of_ne (Ne.symm different) _ _

/-- The world in which the lifetime of a worker's request has been cancelled. -/
def World.cancel (world : World Worker) (worker : Worker) : World Worker :=
  { world with cancelled := Function.update world.cancelled worker true }

/-- How the calls of a worker are answered. -/
def World.serves (keys : KeyPlatform Key) (limiter : RateLimiter) (worker : Worker)
    (world : World Worker) : (request : Call Key) -> request.Answer -> World Worker -> Prop
  | .uptimeNs, (now : UInt64), after =>
      world.uptimeNs ≤ now ∧ after = { world with uptimeNs := now }
  | .limiterAllow request, (allowed : Bool), after =>
      ∃ now events, limiter.allow keys world.limiterEvents now request = (allowed, events) ∧
        after = { world with limiterEvents := events }
  | .lifetimeCancelled, (cancelled : Bool), after =>
      cancelled = world.cancelled worker ∧ after = world
  | .cancelLifetime, _, after => after = world.cancel worker
  | .slotWait _, (acquired : Bool), after =>
      if acquired then 0 < world.slots ∧ after = { world with slots := world.slots - 1 }
      else after = world
  | .slotSignal, _, after => after = { world with slots := world.slots + 1 }
  | .makeSession, _, after => after = world.setSession worker (some ⟨none, []⟩)
  | .sessionStart request _, _, after =>
      after = world.setSession worker
        ((world.sessions worker).map fun session => { session with request := some request })
  | .resultValue, (value : Option Decision), after =>
      value = (world.sessions worker).bind Session.result ∧ after = world
  | _, _, after => after = world

/-- What happens between the calls: a session that was started completes, or finds the
lifetime of its request over and cancels it. -/
inductive World.Drifts : World Worker -> World Worker -> Prop
  | completes (world : World Worker) {worker : Worker} {session : Session} (decision : Decision) :
      world.sessions worker = some session ->
      session.request ≠ none ->
      World.Drifts world (world.setSession worker
        (some { session with completions := session.completions ++ [decision] }))
  | cancels (world : World Worker) (worker : Worker) :
      World.Drifts world (world.cancel worker)

/-- The workers of an agent in their world. -/
def workers (keys : KeyPlatform Key) (limiter : RateLimiter) :
    System Worker (fun _ => Call Key) (fun _ => Call.Answer) (World Worker) where
  serves worker world request answer after := world.serves keys limiter worker request answer after
  drifts := World.Drifts

section Sessions

variable {keys : KeyPlatform Key} {limiter : RateLimiter} {worker : Worker}
variable {world after : World Worker}

/-- A session changes only when its own worker makes or starts one. -/
theorem World.serves_session
    {actor : Worker}
    {request : Call Key}
    {answer : request.Answer}
    (served : world.serves keys limiter actor request answer after)
    (unrelated : actor ≠ worker ∨ ¬IsSession request) :
    after.sessions worker = world.sessions worker := by
  cases request
  case limiterAllow =>
    obtain ⟨_, _, _, rfl⟩ := served
    rfl
  case slotWait =>
    simp only [World.serves] at served
    split at served
    · rw [served.2]
    · rw [served]
  case makeSession | sessionStart =>
    have different : actor ≠ worker := unrelated.resolve_right fun quiet => quiet trivial
    simp only [World.serves] at served
    rw [served, World.setSession_other _ different]
  case uptimeNs | lifetimeCancelled | resultValue => rw [served.2]
  all_goals
    simp only [World.serves] at served
    rw [served]
    try rfl

/-- The session of a worker was started for this request. -/
def StartedFor (worker : Worker) (body : AuthRequestBody) (world : World Worker) : Prop :=
  ∀ session, world.sessions worker = some session -> session.request = some body

/-- The session of a worker has completed with this decision first. -/
def CompletedWith (worker : Worker) (decision : Decision) (world : World Worker) : Prop :=
  ∃ session, world.sessions worker = some session ∧ session.result = some decision

theorem StartedFor.drifts
    {body : AuthRequestBody}
    (started : StartedFor worker body world)
    (drifted : world.Drifts after) :
    StartedFor worker body after := by
  cases drifted with
  | @completes other session decision found active =>
      intro current present
      by_cases same : other = worker
      · subst same
        rw [World.setSession_same] at present
        obtain rfl := Option.some.inj present
        exact started session found
      · rw [World.setSession_other _ same] at present
        exact started current present
  | cancels other => exact started

theorem CompletedWith.drifts
    {decision : Decision}
    (completed : CompletedWith worker decision world)
    (drifted : world.Drifts after) :
    CompletedWith worker decision after := by
  obtain ⟨current, present, result⟩ := completed
  cases drifted with
  | @completes other session further found active =>
      by_cases same : other = worker
      · subst same
        obtain rfl := Option.some.inj (present.symm.trans found)
        refine ⟨_, World.setSession_same .., ?_⟩
        unfold Session.result at result ⊢
        rw [List.head?_append, result]
        rfl
      · exact ⟨current, (World.setSession_other _ same _).trans present, result⟩
  | cancels other => exact ⟨current, present, result⟩

end Sessions

section Safety

variable {platform : Platform Key} {runtime : AgentRuntime Key}

/-- An evaluation that returned a decision has seen it as the result of the session that
was started for its request. -/
theorem evaluated_session
    {keys : KeyPlatform Key}
    {limiter : RateLimiter}
    {programs : Pool (fun _ : Worker => Call Key) (fun _ => Call.Answer) (fun _ => Failure)
      fun _ => Unit}
    {start world : World Worker}
    {history : List (Entry (fun _ : Worker => Call Key) fun _ => Call.Answer)}
    {pool : Pool (fun _ : Worker => Call Key) (fun _ => Call.Answer) (fun _ => Failure)
      fun _ => Unit}
    (run : (workers keys limiter).Run programs start history pool world)
    {worker : Worker}
    {body : AuthRequestBody}
    {requireConfirmation : Bool}
    {decision : Decision}
    {before between after : List (AgentEvent Key)}
    (split : traceOf worker history = before ++
      ⟨.sessionStart body requireConfirmation, ()⟩ ::
        (between ++ ⟨.resultValue, some decision⟩ :: after))
    (noSession : ∀ event ∈ between ++ after, ¬IsSession event.call) :
    ∃ session, world.sessions worker = some session ∧ session.request = some body ∧
      session.result = some decision := by
  have started : StartedFor worker body world := by
    refine System.Run.since (StartedFor worker body) (fun call => ¬IsSession call)
      ?_ ?_ ?_ ?_ run split ?_
    · rintro first _ rfl session present
      rw [World.setSession_same] at present
      obtain ⟨_, _, rfl⟩ := Option.map_eq_some_iff.mp present
      rfl
    · intro first second request answer served quiet held session present
      exact held session ((World.serves_session served (.inr quiet)).symm.trans present)
    · intro other different first second request answer served held session present
      exact held session ((World.serves_session served (.inl different)).symm.trans present)
    · exact fun first second drifted held => held.drifts drifted
    · intro event member
      simp only [List.mem_append, List.mem_cons] at member
      rcases member with early | rfl | late
      · exact noSession event (by simp [early])
      · exact id
      · exact noSession event (by simp [late])
  have completed : CompletedWith worker decision world := by
    have seen : traceOf worker history = (before ++
        ⟨.sessionStart body requireConfirmation, ()⟩ :: between) ++
          ⟨.resultValue, some decision⟩ :: after := by
      simpa using split
    refine System.Run.since (CompletedWith worker decision) (fun call => ¬IsSession call)
      ?_ ?_ ?_ ?_ run seen fun event late => noSession event (by simp [late])
    · rintro first second ⟨value, rfl⟩
      obtain ⟨session, present, result⟩ := Option.bind_eq_some_iff.mp value.symm
      exact ⟨session, present, result⟩
    · rintro first second request answer served quiet ⟨session, present, result⟩
      exact ⟨session, (World.serves_session served (.inr quiet)).trans present, result⟩
    · rintro other different first second request answer served ⟨session, present, result⟩
      exact ⟨session, (World.serves_session served (.inl different)).trans present, result⟩
    · exact fun first second drifted held => held.drifts drifted
  obtain ⟨session, present, result⟩ := completed
  exact ⟨session, present, started session present, result⟩

/-- The last check of a lifetime passed: the monotonic clock had neither reached the
connection deadline nor, counted from the creation of the lifetime, the expiry of the
request; the wall clock had not reached the expiry either; and the peer had neither closed
the connection nor sent anything more. -/
def LastCheckPassed
    (connectionDeadline : Deadline)
    (expiresAtMs : UInt64)
    (past : List (AgentEvent Key)) : Prop :=
  ∃ (before between after : List (AgentEvent Key)) (createdWall createdNow now wall : UInt64),
    past = before ++ (⟨.wallTimeMs, createdWall⟩ :: ⟨.uptimeNs, createdNow⟩ ::
      (between ++ (⟨.lifetimeCancelled, false⟩ :: ⟨.uptimeNs, now⟩ :: ⟨.wallTimeMs, wall⟩ ::
        ⟨.peek, .again⟩ :: after))) ∧
    (∀ event ∈ after, event.call ≠ .peek) ∧
    now < connectionDeadline.uptimeNs ∧
    now.toNat < createdNow.toNat + (expiresAtMs.toNat - createdWall.toNat) * 1000000 ∧
    wall < expiresAtMs

theorem toNat_remaining (expiresAtMs now : UInt64) :
    (if now < expiresAtMs then expiresAtMs - now else 0).toNat =
      expiresAtMs.toNat - now.toNat := by
  split
  · rename_i early
    rw [UInt64.lt_iff_toNat_lt] at early
    exact UInt64.toNat_sub_of_le _ _ (UInt64.le_iff_toNat_le.mpr early.le)
  · rename_i late
    rw [UInt64.lt_iff_toNat_lt] at late
    have zero : (0 : UInt64).toNat = 0 := rfl
    omega

theorem lastCheckPassed_of_alive
    {connectionDeadline : Deadline}
    {expiresAtMs : UInt64}
    {lifetime : RequestLifetime}
    {before starting between check after : List (AgentEvent Key)}
    (started : Started connectionDeadline expiresAtMs lifetime starting)
    (alive : Alive lifetime check)
    (quiet : ∀ event ∈ after, event.call ≠ .peek) :
    LastCheckPassed connectionDeadline expiresAtMs
      (before ++ (starting ++ (between ++ (check ++ after)))) := by
  obtain ⟨createdWall, createdNow, rfl, expiry, deadline⟩ := started
  obtain ⟨now, wall, rfl, early, fresh⟩ := alive
  have bound := toNat_deadlineAfter_le createdNow
    (if createdWall < expiresAtMs then expiresAtMs - createdWall else 0)
  rw [toNat_remaining] at bound
  rw [UInt64.lt_iff_toNat_lt, deadline, toNat_min] at early
  refine ⟨before, between, after, createdWall, createdNow, now, wall, by simp, quiet, ?_, ?_,
    expiry ▸ fresh⟩
  · rw [UInt64.lt_iff_toNat_lt]
    omega
  · omega

/-- Safety of the serve path, for any number of workers and in every run. A worker starts
a session or asks the rate limiter only for a request that it has authorized. What it
sends is the frame of a response that answers an authorized request within its validity,
sent after a passed check of the lifetime, and an approval only if the session of that
request has by then completed with one. -/
theorem handleServeRequest_safe
    (platform : Platform Key)
    (runtime : AgentRuntime Key)
    (deadline : Worker -> Deadline)
    (rounds : Nat)
    (uptimeNs : UInt64)
    (limiterEvents : LimiterEvents)
    {history : List (Entry (fun _ : Worker => Call Key) fun _ => Call.Answer)}
    {pool : Pool (fun _ : Worker => Call Key) (fun _ => Call.Answer) (fun _ => Failure)
      fun _ => Unit}
    {world : World Worker}
    (run : (workers platform.keys runtime.rateLimiter).Run
      (fun worker => handleServeRequest platform runtime (deadline worker) rounds)
      (.initial uptimeNs limiterEvents) history pool world)
    (worker : Worker)
    {past : List (AgentEvent Key)}
    {event : AgentEvent Key}
    (latest : traceOf worker history = past ++ [event]) :
    ((IsSession event.call ∨ ∃ body, event.call = .limiterAllow body) ->
      ∃ request, Authorized platform runtime request past ∧
        ∀ body, (event.call = .limiterAllow body ∨
          ∃ confirmation, event.call = .sessionStart body confirmation) -> request.body = body) ∧
    ∀ bytes, event.call = .send bytes ->
      ∃ request response payload,
        Authorized platform runtime request past ∧
        platform.responseToJson response = some payload ∧
        sent past ++ bytes = lengthPrefixed 4 payload ∧
        LastCheckPassed (deadline worker) request.body.expiresAtMs past ∧
        Answers platform.digest request.body response.body ∧
        (response.body.decision = .approved ->
          ∃ session, world.sessions worker = some session ∧
            session.request = some request.body ∧ session.result = some .approved) := by
  have allowed := (meets_handleServeRequest.steps (run.steps worker) fun _ _ _ _ => trivial).1
    past event [] latest
  rw [List.nil_append] at allowed
  obtain ⟨call, answer⟩ := event
  constructor
  · exact authorized_of_allows allowed
  · rintro bytes equal
    dsimp only at equal
    subst equal
    obtain ⟨request, response, payload, ⟨⟨authorized, approval⟩, answers, lifetime, before,
      starting, between, check, after, rfl, started, alive, quiet⟩, encoded, rest⟩ := allowed
    refine ⟨request, response, payload, authorized, encoded, rest,
      lastCheckPassed_of_alive started alive quiet, answers, fun approved => ?_⟩
    obtain ⟨front, evaluating, back, _, split, _, evaluated, backQuiet⟩ := approval approved
    obtain ⟨first, second, third, rfl, evaluationQuiet⟩ := ends_evaluate evaluated
    have seen : traceOf worker history = (front ++ first) ++
        ⟨.sessionStart request.body runtime.requireConfirmation, ()⟩ ::
          (second ++ ⟨.resultValue, some .approved⟩ ::
            (third ++ (back ++ [⟨.send bytes, answer⟩]))) := by
      rw [latest, split]
      simp
    refine evaluated_session run seen fun event member => ?_
    simp only [List.mem_append, List.mem_singleton] at member
    rcases member with during | after | later | rfl
    · exact evaluationQuiet event (by simp [during])
    · exact evaluationQuiet event (by simp [after])
    · exact backQuiet event later
    · exact id

end Safety

/-! ## A run that ends in an approval -/

/-- A JSON array of bytes. -/
def jsonArray (bytes : Bytes) : String :=
  "[" ++ ",".intercalate (bytes.map fun byte => toString byte.toNat) ++ "]"

/-- A request of the host `web`, as the agent sees it. -/
def webRequest : SignedAuthRequest where
  body := {
    protocolVersion := 1
    requestId := "req-1000-7"
    nonce := List.replicate 32 5
    createdAtMs := 1000
    expiresAtMs := 16000
    linuxHostId := "web"
    linuxHostname := "web"
    pamService := "sudo"
    pamUser := "ada"
    pamRuser := none
    pamRhost := none
    pamTty := none
    sudoCommand := none
    clientPid := some 7
    keyId := "host-key-1"
    alg := "ed25519"
  }
  signature := List.replicate 64 7

/-- The JSON text of the request. -/
def webRequestJson : Bytes :=
  utf8 ("\x7b\"body\":\x7b\"protocol_version\":1,\"request_id\":\"req-1000-7\",\"nonce\":" ++
    jsonArray (List.replicate 32 5) ++ ",\"created_at_ms\":1000,\"expires_at_ms\":16000," ++
    "\"linux_host_id\":\"web\",\"linux_hostname\":\"web\",\"pam_service\":\"sudo\"," ++
    "\"pam_user\":\"ada\",\"pam_ruser\":null,\"pam_rhost\":null,\"pam_tty\":null," ++
    "\"sudo_command\":null,\"client_pid\":7,\"key_id\":\"host-key-1\",\"alg\":\"ed25519\"\x7d," ++
    "\"signature\":" ++ jsonArray (List.replicate 64 7) ++ "\x7d")

/-- The SHA-256 digest of the request's canonical bytes. -/
def webRequestHash : Bytes :=
  [39, 135, 114, 10, 86, 65, 87, 54, 63, 39, 93, 26, 13, 203, 77, 134, 254, 62, 243, 187, 96,
    255, 113, 157, 237, 8, 17, 134, 36, 30, 228, 26]

/-- The JSON text of the approval. -/
def webResponseJson : Bytes :=
  utf8 ("\x7b\"body\":\x7b\"protocol_version\":1,\"request_id\":\"req-1000-7\",\"nonce\":" ++
    jsonArray (List.replicate 32 5) ++ ",\"request_hash\":" ++ jsonArray webRequestHash ++
    ",\"linux_host_id\":\"web\",\"pam_service\":\"sudo\",\"pam_user\":\"ada\"," ++
    "\"decision\":\"approved\",\"auth_method\":\"biometric-or-watch\"," ++
    "\"created_at_ms\":1000,\"expires_at_ms\":11000,\"agent_key_id\":\"agent-key-1\"," ++
    "\"alg\":\"ed25519\"\x7d,\"signature\":" ++ jsonArray (List.replicate 64 9) ++ "\x7d")

/-- Libraries, as far as this run uses them. Keys are bytes. -/
def webPlatform : Platform Bytes where
  keys := {
    canonicalForm := id
    trimmed := id
    lines := fun text => [text]
    isComment := fun _ => false
    afterEquals := fun _ => none
    readSafeFile := fun _ _ => .error .timeout
    publicKey := fun text => .ok (utf8 text)
    isValidSignature := fun _ _ _ => true
  }
  digest _ := webRequestHash
  requestFromJson _ := some webRequest
  responseToJson _ := some webResponseJson
  strerror _ := ""

def webRuntime : AgentRuntime Bytes where
  hostVerifiers := [⟨"web", List.replicate 32 1⟩]
  agentKeyId := "agent-key-1"
  allowedFutureSkewMs := 30000
  requireConfirmation := true
  rateLimiter := .start 60 0

/-- Surroundings in which everything works at once and no time passes. -/
def World.respond (world : World Worker) (worker : Worker) :
    (request : Call Bytes) -> request.Answer × World Worker
  | .wallTimeMs => ((1000 : UInt64), world)
  | .uptimeNs => (world.uptimeNs, world)
  | .poll _ _ => (PollResult.ready false, world)
  | .recv limit =>
      if body : webRequestJson ≠ [] ∧ webRequestJson.length ≤ limit then
        (RecvResult.received ⟨webRequestJson, body⟩, world)
      else if header : bigEndian 4 webRequestJson.length ≠ [] ∧
          (bigEndian 4 webRequestJson.length).length ≤ limit then
        (RecvResult.received ⟨bigEndian 4 webRequestJson.length, header⟩, world)
      else
        (RecvResult.closed, world)
  | .peek => (PeekResult.again, world)
  | .send bytes =>
      if some : 0 < bytes.length then
        (SendResult.sent ⟨bytes.length, some, Nat.le_refl _⟩, world)
      else
        (SendResult.again, world)
  | .closeHandle => ((), world)
  | .isValidSignature _ _ _ => (true, world)
  | .sign _ => (some (List.replicate 64 9), world)
  | .limiterAllow _ => (true, world)
  | .lifetimeCancelled => (world.cancelled worker, world)
  | .cancelLifetime => ((), world.cancel worker)
  | .slotWait _ =>
      if 0 < world.slots then (true, { world with slots := world.slots - 1 }) else (false, world)
  | .slotSignal => ((), { world with slots := world.slots + 1 })
  | .makeSession => ((), world.setSession worker (some ⟨none, []⟩))
  | .sessionStart request _ =>
      ((), world.setSession worker
        ((world.sessions worker).map fun session => { session with request := some request }))
  | .resultValue => ((world.sessions worker).bind Session.result, world)
  | .readyWait _ => ((), world)
  | .sessionCancel => ((), world)

theorem World.serves_respond (world : World Worker) (worker : Worker) (request : Call Bytes) :
    world.serves webPlatform.keys webRuntime.rateLimiter worker request
      (world.respond worker request).1 (world.respond worker request).2 := by
  cases request
  case uptimeNs => exact ⟨UInt64.le_refl _, rfl⟩
  case limiterAllow body => exact ⟨0, _, rfl, rfl⟩
  case lifetimeCancelled => exact ⟨rfl, rfl⟩
  case resultValue => exact ⟨rfl, rfl⟩
  case slotWait =>
    simp only [World.respond, World.serves]
    split
    · rename_i free
      simp [free]
    · simp
  case recv =>
    simp only [World.respond, World.serves]
    split
    · rfl
    · split <;> rfl
  case send =>
    simp only [World.respond, World.serves]
    split <;> rfl
  all_goals rfl

def webWorker : Routine Bytes Unit :=
  handleServeRequest webPlatform webRuntime ⟨15000000000⟩ 3

/-- The worker up to the start of the session. -/
def webAsking :
    List (AgentEvent Bytes) × Routine Bytes Unit × World Unit :=
  System.follow (fun world => world.respond ()) 27 webWorker (.initial 0 fun _ => [])

/-- The user approves. -/
def webAnswered : World Unit :=
  webAsking.2.2.setSession () (some ⟨some webRequest.body, [.approved]⟩)

/-- The worker up to the first bytes of the response. -/
def webAnswering :
    List (AgentEvent Bytes) × Routine Bytes Unit × World Unit :=
  System.follow (fun world => world.respond ()) 23 webAsking.2.1 webAnswered

set_option maxRecDepth 4000 in
/-- A single worker serves the request of the host `web`. Once the session has started,
the user approves, and the worker goes on until it sends the response. -/
theorem handleServeRequest_safe_approval :
    ∃ history pool world past event,
      (workers webPlatform.keys webRuntime.rateLimiter).Run (fun _ : Unit => webWorker)
        (.initial 0 fun _ => []) history pool world ∧
      traceOf () history = past ++ [event] ∧
      event.call = .send (lengthPrefixed 4 webResponseJson) ∧
      ∃ (request : SignedAuthRequest) (response : SignedAuthResponse) (payload : Bytes),
        Authorized webPlatform webRuntime request past ∧
        sent past ++ lengthPrefixed 4 webResponseJson = lengthPrefixed 4 payload ∧
        LastCheckPassed ⟨15000000000⟩ request.body.expiresAtMs past ∧
        Answers webPlatform.digest request.body response.body := by
  have faithful (world : World Unit) (request : Call Bytes) :
      (workers webPlatform.keys webRuntime.rateLimiter).serves () world request
        (world.respond () request).1 (world.respond () request).2 :=
    world.serves_respond () request
  have asked : (workers webPlatform.keys webRuntime.rateLimiter).Run (fun _ : Unit => webWorker)
      (.initial 0 fun _ => []) ([] ++ webAsking.1.map (Entry.mk ()))
      (Function.update (fun _ => webWorker) () webAsking.2.1) webAsking.2.2 :=
    System.Run.follow faithful .start 27
  have answered : (workers webPlatform.keys webRuntime.rateLimiter).Run (fun _ : Unit => webWorker)
      (.initial 0 fun _ => []) ([] ++ webAsking.1.map (Entry.mk ()))
      (Function.update (fun _ => webWorker) () webAsking.2.1) webAnswered :=
    asked.drift (World.Drifts.completes webAsking.2.2 .approved
      (show webAsking.2.2.sessions () = some ⟨some webRequest.body, []⟩ from rfl) (by simp))
  have sending := System.Run.follow faithful answered 23
  have last : webAnswering.1 = webAnswering.1.dropLast ++
      [⟨.send (lengthPrefixed 4 webResponseJson), .sent ⟨_, by decide, Nat.le_refl _⟩⟩] := rfl
  let history : List (Entry (fun _ : Unit => Call Bytes) fun _ => Call.Answer) :=
    [] ++ webAsking.1.map (Entry.mk ()) ++ webAnswering.1.map (Entry.mk ())
  have latest : traceOf () history = (webAsking.1 ++ webAnswering.1.dropLast) ++
      [⟨.send (lengthPrefixed 4 webResponseJson), .sent ⟨_, by decide, Nat.le_refl _⟩⟩] := by
    rw [traceOf_append, List.nil_append, System.traceOf_map_own, System.traceOf_map_own,
      List.append_assoc, ← last]
  obtain ⟨request, response, payload, authorized, _, rest, checked, answers, _⟩ :=
    (handleServeRequest_safe webPlatform webRuntime (fun _ => ⟨15000000000⟩) 3 0 (fun _ => [])
      sending () latest).2 _ rfl
  exact ⟨_, _, _, _, _, sending, latest, rfl, request, response, payload, authorized, rest, checked,
    answers⟩

end Agent
end MacosAuth
