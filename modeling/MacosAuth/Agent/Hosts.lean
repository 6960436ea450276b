import MacosAuth.Agent.Agreement
import Mathlib.Data.List.Forall2
import Mathlib.Data.List.Pairwise

/-!
# The host allowlist of the agent

The `hosts add` and `hosts remove` commands edit the list of allowed hosts in the
agent's config. When the agent starts, `hostVerifiers` turns the config into a
dictionary of verification keys: one entry for each listed host, or a single
wildcard entry for the legacy key if the list is absent or empty. A request is
looked up under its own host id first and under the wildcard second.

The main results say when removing a host narrows what is accepted: `SafeToRemove`
is enough, and it is necessary as soon as the holder of a key can sign.
-/

namespace MacosAuth
namespace Agent

open Codec
open Protocol (utf8 FieldFits bind_eq_ok)

structure AllowedHost where
  hostId : String
  publicKeyHex : Option String
  publicKeyFile : Option String
  deriving DecidableEq

structure AgentConfig where
  socketPath : String
  hosts : Option (List AllowedHost)
  hostPublicKeyHex : Option String
  hostPublicKeyFile : Option String
  agentKeyHex : Option String
  agentKeyFile : Option String
  agentKeychainService : Option String
  agentKeychainAccount : Option String
  agentKeyId : Option String
  allowedFutureSkewMs : Option UInt64
  requireConfirmation : Option Bool
  rateLimitWindowSeconds : Option UInt64
  rateLimitMaxRequests : Option Int
  deriving DecidableEq

/-- One entry of the verifier dictionary, under its own host id. -/
structure HostVerifier (Key : Type) where
  hostId : String
  publicKey : Key

/-- What host lookup takes from its surroundings. No result below depends on how
these functions compute. -/
structure KeyPlatform (Key : Type) where
  /-- The form under which string equality and dictionary lookup compare. -/
  canonicalForm : String -> String
  /-- `trimmingCharacters(in: .whitespacesAndNewlines)`. -/
  trimmed : String -> String
  /-- `split(separator: "\n", omittingEmptySubsequences: false)`. -/
  lines : String -> List String
  /-- `hasPrefix("#")`. -/
  isComment : String -> Bool
  /-- The text after the first equals sign. -/
  afterEquals : String -> Option String
  /-- `readSafeFile(path:label:privateMaterial:)` and UTF-8 decoding. -/
  readSafeFile : String -> String -> Except AgentError String
  /-- `hexDecode` followed by `PublicKey(rawRepresentation:)`. -/
  publicKey : String -> Except AgentError Key
  /-- `isValidSignature(_:for:)`: key, message and signature. -/
  isValidSignature : Key -> Bytes -> Bytes -> Bool

namespace KeyPlatform

variable {Key : Type} (platform : KeyPlatform Key)

/-- String equality of the agent. -/
def same (left right : String) : Bool :=
  platform.canonicalForm left == platform.canonicalForm right

/-! ## Building and using the dictionary -/

/-- The loop of `readKeyMaterial` over the lines of a key file. -/
def keyLine : List String -> Option String
  | [] => none
  | rawLine :: rest =>
      let line := platform.trimmed rawLine
      if line.isEmpty || platform.isComment line then
        keyLine rest
      else
        match platform.afterEquals line with
        | some value => some (platform.trimmed value)
        | none => some line

/-- Key material comes from exactly one of an inline value and a file. -/
def readKeyMaterial
    (hex file : Option String)
    (label : String) : Except AgentError String :=
  match hex, file with
  | some _, some _ => .error (.usage ("provide only one source for " ++ label))
  | some hex, none => .ok (platform.trimmed hex)
  | none, none => .error (.usage ("missing " ++ label))
  | none, some file => do
      let contents ← platform.readSafeFile file label
      match platform.keyLine (platform.lines contents) with
      | some value => return value
      | none => .error (.invalidPayload (label ++ " file is empty"))

/-- One round of the loop in `hostVerifiers`. -/
def addVerifier
    (verifiers : List (HostVerifier Key))
    (host : AllowedHost) : Except AgentError (List (HostVerifier Key)) := do
  let publicKeyHex ← platform.readKeyMaterial host.publicKeyHex host.publicKeyFile
    ("host public key for " ++ host.hostId)
  if verifiers.any fun verifier => platform.same verifier.hostId host.hostId then
    .error (.invalidPayload ("duplicate host_id " ++ host.hostId))
  else
    let publicKey ← platform.publicKey publicKeyHex
    return verifiers ++ [{ hostId := host.hostId, publicKey := publicKey }]

/-- The key of the legacy single-key mode. -/
def legacyKey (config : AgentConfig) : Except AgentError Key := do
  let publicKeyHex ← platform.readKeyMaterial config.hostPublicKeyHex
    config.hostPublicKeyFile "host public key"
  platform.publicKey publicKeyHex

def hostVerifiers (config : AgentConfig) : Except AgentError (List (HostVerifier Key)) :=
  match config.hosts with
  | some (first :: rest) => (first :: rest).foldlM platform.addVerifier []
  | _ => do
      let publicKey ← platform.legacyKey config
      return [{ hostId := "*", publicKey := publicKey }]

/-- Dictionary subscript. -/
def subscript
    (verifiers : List (HostVerifier Key))
    (hostId : String) : Option (HostVerifier Key) :=
  verifiers.find? fun verifier => platform.same verifier.hostId hostId

/-- The lookup of `handleServeRequest`, with its wildcard fallback. -/
def verifierFor
    (verifiers : List (HostVerifier Key))
    (hostId : String) : Option (HostVerifier Key) :=
  match platform.subscript verifiers hostId with
  | some verifier => some verifier
  | none => platform.subscript verifiers "*"

/-- The request passes host lookup and signature check under the config. -/
def Accepts (config : AgentConfig) (request : SignedAuthRequest) : Prop :=
  ∃ verifiers verifier bytes,
    platform.hostVerifiers config = .ok verifiers ∧
    platform.verifierFor verifiers request.body.linuxHostId = some verifier ∧
    request.body.canonicalBytes = .ok bytes ∧
    platform.isValidSignature verifier.publicKey bytes request.signature = true

/-! ## Editing the list -/

/-- The editing subcommands of `hosts`. -/
inductive HostsCommand
  | add (host : AllowedHost)
  | remove (hostId : String)

/-- The effect of `runHosts` on the config that it loads and writes back. -/
def runHosts (config : AgentConfig) : HostsCommand -> Except AgentError AgentConfig
  | .add host =>
      let hosts := config.hosts.getD []
      if hosts.any fun listed => platform.same listed.hostId host.hostId then
        .error (.invalidPayload ("host already exists: " ++ host.hostId))
      else
        .ok { config with hosts := some (hosts ++ [host]) }
  | .remove hostId =>
      let oldHosts := config.hosts.getD []
      let newHosts := oldHosts.filter fun listed => !platform.same listed.hostId hostId
      if newHosts.length = oldHosts.length then
        .error (.invalidPayload ("host not found: " ++ hostId))
      else
        .ok { config with hosts := some newHosts }

/-- A sequence of successful commands. -/
def runAll (config : AgentConfig) (commands : List HostsCommand) :
    Except AgentError AgentConfig :=
  commands.foldlM platform.runHosts config

/-! ## What the dictionary contains -/

/-- The verification key of a listed host. -/
def hostKey (host : AllowedHost) : Except AgentError Key := do
  let publicKeyHex ← platform.readKeyMaterial host.publicKeyHex host.publicKeyFile
    ("host public key for " ++ host.hostId)
  platform.publicKey publicKeyHex

/-- A list of hosts from which verifiers can be built: every key can be read and
no host id occurs twice. -/
def Loads (hosts : List AllowedHost) : Prop :=
  (∀ host ∈ hosts, ∃ key, platform.hostKey host = .ok key) ∧
    hosts.Pairwise fun left right => platform.same left.hostId right.hostId = false

/-- A dictionary entry that comes from a listed host. -/
def Matches (host : AllowedHost) (verifier : HostVerifier Key) : Prop :=
  verifier.hostId = host.hostId ∧ platform.hostKey host = .ok verifier.publicKey

theorem same_comm (left right : String) :
    platform.same left right = platform.same right left :=
  Bool.beq_comm

theorem same_trans
    {left middle right : String}
    (first : platform.same left middle = true)
    (second : platform.same middle right = true) :
    platform.same left right = true := by
  simp only [same, beq_iff_eq] at *
  exact first.trans second

theorem addVerifier_eq_ok_iff
    {verifiers result : List (HostVerifier Key)}
    {host : AllowedHost} :
    platform.addVerifier verifiers host = .ok result ↔
      (∀ verifier ∈ verifiers, platform.same verifier.hostId host.hostId = false) ∧
        ∃ key, platform.hostKey host = .ok key ∧
          result = verifiers ++ [{ hostId := host.hostId, publicKey := key }] := by
  simp only [addVerifier, hostKey, bind_eq_ok]
  constructor
  · rintro ⟨text, read, built⟩
    split at built
    · exact absurd built (by simp)
    · rename_i absent
      obtain ⟨key, parsed, rfl⟩ := by simpa only [bind_eq_ok, pure, Except.pure,
        Except.ok.injEq] using built
      exact ⟨by simpa using absent, key, ⟨text, read, parsed⟩, rfl⟩
  · rintro ⟨absent, key, ⟨text, read, parsed⟩, rfl⟩
    refine ⟨text, read, ?_⟩
    rw [if_neg (by simpa using absent)]
    simp only [parsed]
    rfl

/-- What the loop of `hostVerifiers` builds, by induction over the hosts that are
still to be added. -/
theorem foldlM_addVerifier_eq_ok_iff
    {hosts : List AllowedHost}
    {verifiers result : List (HostVerifier Key)} :
    hosts.foldlM platform.addVerifier verifiers = .ok result ↔
      ∃ added, result = verifiers ++ added ∧
        List.Forall₂ platform.Matches hosts added ∧
        (∀ verifier ∈ verifiers, ∀ host ∈ hosts,
          platform.same verifier.hostId host.hostId = false) ∧
        hosts.Pairwise fun left right =>
          platform.same left.hostId right.hostId = false := by
  induction hosts generalizing verifiers with
  | nil =>
      simp only [List.foldlM_nil, pure, Except.pure, Except.ok.injEq,
        List.forall₂_nil_left_iff, List.not_mem_nil, false_implies, implies_true,
        List.Pairwise.nil, and_true, exists_eq_right, List.append_nil]
      exact eq_comm
  | cons host hosts inductionHypothesis =>
      simp only [List.foldlM_cons, bind_eq_ok, addVerifier_eq_ok_iff,
        inductionHypothesis, List.pairwise_cons]
      constructor
      · rintro ⟨_, ⟨absent, key, read, rfl⟩, added, rfl, matching, fresh, distinct⟩
        refine ⟨{ hostId := host.hostId, publicKey := key } :: added, by simp,
          .cons ⟨rfl, read⟩ matching, ?_, ?_, distinct⟩
        · intro verifier member listed listedMember
          rcases List.mem_cons.mp listedMember with rfl | inTail
          · exact absent verifier member
          · exact fresh verifier (by simp [member]) listed inTail
        · intro listed listedMember
          exact fresh { hostId := host.hostId, publicKey := key } (by simp) listed
            listedMember
      · rintro ⟨added, rfl, matching, fresh, headDistinct, distinct⟩
        cases matching with
        | @cons _ verifier _ rest headMatches tailMatches =>
            obtain ⟨name, read⟩ := headMatches
            refine ⟨_, ⟨fun old member => fresh old member host (by simp), _, read, rfl⟩,
              rest, ?_, tailMatches, ?_, distinct⟩
            · cases verifier
              simp_all
            · intro old member listed listedMember
              rcases List.mem_append.mp member with inOld | inNew
              · exact fresh old inOld listed (by simp [listedMember])
              · rw [List.mem_singleton.mp inNew]
                exact headDistinct listed listedMember

/-- Verifiers can be built from a list of hosts exactly when it loads. -/
theorem hostVerifiers_of_hosts
    {config : AgentConfig}
    {hosts : List AllowedHost}
    (listed : config.hosts = some hosts)
    (nonempty : hosts ≠ [])
    {verifiers : List (HostVerifier Key)} :
    platform.hostVerifiers config = .ok verifiers ↔
      List.Forall₂ platform.Matches hosts verifiers ∧
        hosts.Pairwise fun left right =>
          platform.same left.hostId right.hostId = false := by
  cases hosts with
  | nil => exact absurd rfl nonempty
  | cons host hosts =>
      simp only [hostVerifiers, listed, foldlM_addVerifier_eq_ok_iff, List.nil_append,
        List.not_mem_nil, false_implies, implies_true, true_and, exists_eq_left']

theorem hostVerifiers_of_empty
    {config : AgentConfig}
    (listed : config.hosts = some [])
    {verifiers : List (HostVerifier Key)} :
    platform.hostVerifiers config = .ok verifiers ↔
      ∃ key, platform.legacyKey config = .ok key ∧
        [{ hostId := "*", publicKey := key }] = verifiers := by
  simp only [hostVerifiers, listed, bind_eq_ok, pure, Except.pure, Except.ok.injEq]

section Dictionary

variable {platform}
variable {hosts : List AllowedHost} {verifiers : List (HostVerifier Key)}

theorem exists_host_of_mem
    (matching : List.Forall₂ platform.Matches hosts verifiers)
    {verifier : HostVerifier Key}
    (member : verifier ∈ verifiers) :
    ∃ host ∈ hosts, platform.Matches host verifier := by
  induction matching with
  | nil => exact absurd member (by simp)
  | cons headMatches _ inductionHypothesis =>
      rcases List.mem_cons.mp member with rfl | inTail
      · exact ⟨_, by simp, headMatches⟩
      · obtain ⟨host, hostMember, matched⟩ := inductionHypothesis inTail
        exact ⟨host, by simp [hostMember], matched⟩

theorem exists_verifier_of_mem
    (matching : List.Forall₂ platform.Matches hosts verifiers)
    {host : AllowedHost}
    (member : host ∈ hosts) :
    ∃ verifier ∈ verifiers, platform.Matches host verifier := by
  induction matching with
  | nil => exact absurd member (by simp)
  | cons headMatches _ inductionHypothesis =>
      rcases List.mem_cons.mp member with rfl | inTail
      · exact ⟨_, by simp, headMatches⟩
      · obtain ⟨verifier, verifierMember, matched⟩ := inductionHypothesis inTail
        exact ⟨verifier, by simp [verifierMember], matched⟩

theorem exists_verifiers_of_loads
    (loads : platform.Loads hosts) :
    ∃ verifiers, List.Forall₂ platform.Matches hosts verifiers := by
  have keys := loads.1
  clear loads
  induction hosts with
  | nil => exact ⟨[], .nil⟩
  | cons host hosts inductionHypothesis =>
      obtain ⟨key, read⟩ := keys host (by simp)
      obtain ⟨verifiers, matching⟩ :=
        inductionHypothesis fun listed member => keys listed (by simp [member])
      exact ⟨{ hostId := host.hostId, publicKey := key } :: verifiers,
        .cons ⟨rfl, read⟩ matching⟩

theorem loads_of_matches
    (matching : List.Forall₂ platform.Matches hosts verifiers)
    (distinct : hosts.Pairwise fun left right =>
      platform.same left.hostId right.hostId = false) :
    platform.Loads hosts := by
  refine ⟨?_, distinct⟩
  intro host member
  obtain ⟨verifier, _, matched⟩ := exists_verifier_of_mem matching member
  exact ⟨verifier.publicKey, matched.2⟩

/-- A subscript that succeeds returns the key of a listed host of that id. -/
theorem exists_host_of_subscript
    (matching : List.Forall₂ platform.Matches hosts verifiers)
    {hostId : String}
    {verifier : HostVerifier Key}
    (found : platform.subscript verifiers hostId = some verifier) :
    ∃ host ∈ hosts, platform.same host.hostId hostId = true ∧
      platform.hostKey host = .ok verifier.publicKey := by
  obtain ⟨host, member, name, read⟩ :=
    exists_host_of_mem matching (List.mem_of_find?_eq_some found)
  have named := List.find?_some found
  rw [name] at named
  exact ⟨host, member, named, read⟩

theorem subscript_eq_none
    (matching : List.Forall₂ platform.Matches hosts verifiers)
    {hostId : String}
    (absent : ∀ host ∈ hosts, platform.same host.hostId hostId = false) :
    platform.subscript verifiers hostId = none := by
  refine List.find?_eq_none.mpr fun verifier member => ?_
  obtain ⟨host, hostMember, name, _⟩ := exists_host_of_mem matching member
  simp [name, absent host hostMember]

/-- A listed host is found under every spelling of its id, with its own key. -/
theorem exists_subscript_of_mem
    (matching : List.Forall₂ platform.Matches hosts verifiers)
    (distinct : hosts.Pairwise fun left right =>
      platform.same left.hostId right.hostId = false)
    {host : AllowedHost}
    (member : host ∈ hosts)
    {hostId : String}
    (named : platform.same host.hostId hostId = true)
    {key : Key}
    (read : platform.hostKey host = .ok key) :
    ∃ verifier, platform.subscript verifiers hostId = some verifier ∧
      verifier.publicKey = key := by
  obtain ⟨verifier, verifierMember, name, _⟩ := exists_verifier_of_mem matching member
  have present : (platform.subscript verifiers hostId).isSome = true := by
    refine List.find?_isSome.mpr ⟨verifier, verifierMember, ?_⟩
    rw [name]
    exact named
  obtain ⟨found, foundAt⟩ := Option.isSome_iff_exists.mp present
  refine ⟨found, foundAt, ?_⟩
  obtain ⟨other, otherMember, otherNamed, otherRead⟩ :=
    exists_host_of_subscript matching foundAt
  have unique : other = host := by
    by_contra different
    have symmetric : Std.Symm fun left right : AllowedHost =>
        platform.same left.hostId right.hostId = false :=
      ⟨fun left right apart => by rw [platform.same_comm, apart]⟩
    have apart := distinct.forall otherMember member different
    rw [platform.same_comm] at named
    rw [platform.same_trans otherNamed named] at apart
    exact absurd apart (by simp)
  rw [unique, read] at otherRead
  exact (Except.ok.inj otherRead).symm

end Dictionary

/-! ## Removing a host -/

/-- The hosts that `hosts remove` keeps. -/
def remaining (config : AgentConfig) (hostId : String) : List AllowedHost :=
  (config.hosts.getD []).filter fun listed => !platform.same listed.hostId hostId

/-- The removal makes no request acceptable that was not, and leaves no
acceptable request of the removed host. -/
def RemovalNarrows (before after : AgentConfig) (hostId : String) : Prop :=
  (∀ request, platform.Accepts after request -> platform.Accepts before request) ∧
    ∀ request, platform.same request.body.linuxHostId hostId = true ->
      ¬platform.Accepts after request

/-- Either nothing can be built from the config that is left, or entries remain,
none of them is the wildcard, and the full list could be loaded before. -/
def SafeToRemove (config : AgentConfig) (hostId : String) : Prop :=
  (platform.remaining config hostId = [] ∧
    ∀ key, platform.legacyKey config ≠ .ok key) ∨
  (platform.remaining config hostId ≠ [] ∧
    (¬platform.Loads (platform.remaining config hostId) ∨
      platform.Loads (config.hosts.getD []) ∧
        ∀ host ∈ platform.remaining config hostId,
          platform.same host.hostId "*" = false))

/-- The holder of a key can sign a request of any host id that fits its field. -/
def KeysSign : Prop :=
  ∀ key hostId, FieldFits (utf8 hostId) ->
    ∃ (request : SignedAuthRequest) (bytes : Bytes),
      request.body.linuxHostId = hostId ∧
      request.body.canonicalBytes = .ok bytes ∧
      platform.isValidSignature key bytes request.signature = true

section Removal

variable {platform}
variable {before after : AgentConfig} {hostId : String}

theorem runHosts_remove_eq_ok_iff :
    platform.runHosts before (.remove hostId) = .ok after ↔
      (∃ host ∈ before.hosts.getD [], platform.same host.hostId hostId = true) ∧
        after = { before with hosts := some (platform.remaining before hostId) } := by
  have kept : (platform.remaining before hostId).length =
      (before.hosts.getD []).length ↔
        ∀ host ∈ before.hosts.getD [], platform.same host.hostId hostId = false := by
    rw [remaining, List.length_filter_eq_length_iff]
    simp
  simp only [runHosts]
  split
  · rename_i unchanged
    have absent := kept.mp unchanged
    simp only [reduceCtorEq, false_iff, not_and]
    rintro ⟨host, member, named⟩
    rw [absent host member] at named
    exact absurd named (by simp)
  · rename_i changed
    have present : ∃ host ∈ before.hosts.getD [],
        platform.same host.hostId hostId = true := by
      by_contra none
      exact changed (kept.mpr fun host member => by
        rw [← Bool.not_eq_true]
        exact fun named => none ⟨host, member, named⟩)
    constructor
    · intro equal
      exact ⟨present, (Except.ok.inj equal).symm⟩
    · rintro ⟨_, rfl⟩
      rfl

/-- The remaining hosts are those of another id. -/
theorem mem_remaining
    {host : AllowedHost} :
    host ∈ platform.remaining before hostId ↔
      host ∈ before.hosts.getD [] ∧ platform.same host.hostId hostId = false := by
  simp [remaining]

theorem accepts_of_empty
    (emptied : after.hosts = some [])
    {key : Key}
    (legacy : platform.legacyKey after = .ok key)
    {request : SignedAuthRequest}
    {bytes : Bytes}
    (encoded : request.body.canonicalBytes = .ok bytes)
    (signed : platform.isValidSignature key bytes request.signature = true) :
    platform.Accepts after request := by
  refine ⟨_, { hostId := "*", publicKey := key }, bytes,
    (platform.hostVerifiers_of_empty emptied).mpr ⟨key, legacy, rfl⟩, ?_, encoded, signed⟩
  have wildcard : platform.same "*" "*" = true := by simp [same]
  unfold verifierFor subscript
  cases matched : platform.same "*" request.body.linuxHostId <;>
    simp [matched, wildcard]

/-- The condition is enough: what is accepted afterwards comes from an entry
that was used for the same id before. -/
theorem SafeToRemove.removalNarrows
    (removed : platform.runHosts before (.remove hostId) = .ok after)
    (safe : platform.SafeToRemove before hostId) :
    platform.RemovalNarrows before after hostId := by
  obtain ⟨⟨gone, goneMember, _⟩, rfl⟩ := runHosts_remove_eq_ok_iff.mp removed
  rcases safe with ⟨emptied, noLegacy⟩ | ⟨nonempty, unloadable | ⟨loads, noWildcard⟩⟩
  · have rejects (request : SignedAuthRequest) : ¬platform.Accepts
        { before with hosts := some (platform.remaining before hostId) } request := by
      rintro ⟨verifiers, verifier, bytes, built, _⟩
      obtain ⟨key, legacy, _⟩ :=
        (platform.hostVerifiers_of_empty (by simp [emptied])).mp built
      exact noLegacy key legacy
    exact ⟨fun request accepted => absurd accepted (rejects request),
      fun request _ => rejects request⟩
  · have rejects (request : SignedAuthRequest) : ¬platform.Accepts
        { before with hosts := some (platform.remaining before hostId) } request := by
      rintro ⟨verifiers, verifier, bytes, built, _⟩
      obtain ⟨matching, distinct⟩ :=
        (platform.hostVerifiers_of_hosts rfl nonempty).mp built
      exact unloadable (loads_of_matches matching distinct)
    exact ⟨fun request accepted => absurd accepted (rejects request),
      fun request _ => rejects request⟩
  · -- without a wildcard entry, acceptance means that the request's own id is listed
    have listed (request : SignedAuthRequest)
        (accepted : platform.Accepts
          { before with hosts := some (platform.remaining before hostId) } request) :
        ∃ host ∈ platform.remaining before hostId,
          platform.same host.hostId request.body.linuxHostId = true ∧
          ∃ key bytes, platform.hostKey host = .ok key ∧
            request.body.canonicalBytes = .ok bytes ∧
            platform.isValidSignature key bytes request.signature = true := by
      obtain ⟨verifiers, verifier, bytes, built, looked, encoded, signed⟩ := accepted
      obtain ⟨matching, _⟩ := (platform.hostVerifiers_of_hosts rfl nonempty).mp built
      have found : platform.subscript verifiers request.body.linuxHostId =
          some verifier := by
        unfold verifierFor at looked
        rw [subscript_eq_none matching noWildcard] at looked
        split at looked
        · rename_i own foundOwn
          rw [foundOwn, ← looked]
        · exact absurd looked (by simp)
      obtain ⟨host, member, named, read⟩ := exists_host_of_subscript matching found
      exact ⟨host, member, named, _, bytes, read, encoded, signed⟩
    constructor
    · intro request accepted
      obtain ⟨host, member, named, key, bytes, read, encoded, signed⟩ :=
        listed request accepted
      obtain ⟨verifiers, matching⟩ := exists_verifiers_of_loads loads
      obtain ⟨verifier, found, rfl⟩ := exists_subscript_of_mem matching loads.2
        (mem_remaining.mp member).1 named read
      have present : before.hosts = some (before.hosts.getD []) := by
        cases hosts : before.hosts with
        | none => simp [hosts] at goneMember
        | some list => rfl
      refine ⟨verifiers, verifier, bytes,
        (platform.hostVerifiers_of_hosts present
          (List.ne_nil_of_mem goneMember)).mpr ⟨matching, loads.2⟩, ?_, encoded, signed⟩
      simp [verifierFor, found]
    · intro request named accepted
      obtain ⟨host, member, hostNamed, _⟩ := listed request accepted
      have apart := (mem_remaining.mp member).2
      rw [platform.same_trans hostNamed named] at apart
      exact absurd apart (by simp)

/-- The condition is necessary, since every key that loads can sign. -/
theorem RemovalNarrows.safeToRemove
    (removed : platform.runHosts before (.remove hostId) = .ok after)
    (keysSign : platform.KeysSign)
    (fits : ∀ host ∈ before.hosts.getD [], FieldFits (utf8 host.hostId))
    (narrows : platform.RemovalNarrows before after hostId) :
    platform.SafeToRemove before hostId := by
  obtain ⟨⟨gone, goneMember, goneNamed⟩, rfl⟩ := runHosts_remove_eq_ok_iff.mp removed
  by_cases emptied : platform.remaining before hostId = []
  · refine .inl ⟨emptied, fun key legacy => ?_⟩
    obtain ⟨request, bytes, id_eq, encoded, signed⟩ :=
      keysSign key gone.hostId (fits gone goneMember)
    have legacyAfter : platform.legacyKey
        { before with hosts := some (platform.remaining before hostId) } = .ok key :=
      legacy
    exact narrows.2 request (by rw [id_eq]; exact goneNamed)
      (accepts_of_empty (by simp [emptied]) legacyAfter encoded signed)
  · refine .inr ⟨emptied, ?_⟩
    by_cases loads : platform.Loads (platform.remaining before hostId)
    · obtain ⟨verifiers, matching⟩ := exists_verifiers_of_loads loads
      have built : platform.hostVerifiers
          { before with hosts := some (platform.remaining before hostId) } = .ok verifiers :=
        (platform.hostVerifiers_of_hosts rfl emptied).mpr ⟨matching, loads.2⟩
      right
      constructor
      · -- some remaining host is accepted now, so it was accepted before
        obtain ⟨host, member⟩ := List.exists_mem_of_ne_nil _ emptied
        obtain ⟨key, read⟩ := loads.1 host member
        obtain ⟨request, bytes, id_eq, encoded, signed⟩ :=
          keysSign key host.hostId (fits host (mem_remaining.mp member).1)
        have own : platform.same host.hostId host.hostId = true := by simp [same]
        obtain ⟨verifier, found, rfl⟩ :=
          exists_subscript_of_mem matching loads.2 member own read
        obtain ⟨oldVerifiers, _, _, oldBuilt, _⟩ := narrows.1 request
          ⟨verifiers, verifier, bytes, built, by simp [verifierFor, id_eq, found],
            encoded, signed⟩
        have present : before.hosts = some (before.hosts.getD []) := by
          cases hosts : before.hosts with
          | none => simp [hosts] at goneMember
          | some list => rfl
        obtain ⟨oldMatching, oldDistinct⟩ := (platform.hostVerifiers_of_hosts present
          (List.ne_nil_of_mem goneMember)).mp oldBuilt
        exact loads_of_matches oldMatching oldDistinct
      · -- a wildcard entry would accept the removed id
        intro host member
        by_contra wildcard
        rw [Bool.not_eq_false] at wildcard
        obtain ⟨key, read⟩ := loads.1 host member
        obtain ⟨request, bytes, id_eq, encoded, signed⟩ :=
          keysSign key gone.hostId (fits gone goneMember)
        obtain ⟨verifier, found, rfl⟩ :=
          exists_subscript_of_mem matching loads.2 member wildcard read
        have unlisted : platform.subscript verifiers gone.hostId = none := by
          refine subscript_eq_none matching fun other otherMember => ?_
          by_contra named
          rw [Bool.not_eq_false] at named
          have apart := (mem_remaining.mp otherMember).2
          rw [platform.same_trans named goneNamed] at apart
          exact absurd apart (by simp)
        exact narrows.2 request (by rw [id_eq]; exact goneNamed)
          ⟨verifiers, verifier, bytes, built, by simp [verifierFor, id_eq, unlisted, found],
            encoded, signed⟩
    · exact .inl loads

end Removal

/-- After any successful edits of a config, a removal that is safe neither widens
what is accepted nor leaves an acceptable request of the removed host. -/
theorem hosts_remove_narrows
    (config before after : AgentConfig)
    (commands : List HostsCommand)
    (hostId : String)
    (edited : platform.runAll config commands = .ok before)
    (removed : platform.runHosts before (.remove hostId) = .ok after)
    (safe : platform.SafeToRemove before hostId) :
    platform.runAll config (commands ++ [.remove hostId]) = .ok after ∧
      platform.RemovalNarrows before after hostId := by
  refine ⟨?_, safe.removalNarrows removed⟩
  simp only [runAll, List.foldlM_append, bind_eq_ok, List.foldlM_cons, List.foldlM_nil,
    pure, Except.pure, Except.ok.injEq, exists_eq_right]
  exact ⟨before, edited, removed⟩

end KeyPlatform

/-! ## A removal that leaves a wildcard entry -/

namespace SampleHosts

/-- Keys are their own hex text, and a signature is the key followed by the
message. -/
def platform : KeyPlatform String where
  canonicalForm := id
  trimmed := id
  lines text := [text]
  isComment _ := false
  afterEquals _ := none
  readSafeFile _ label := .error (.io ("open " ++ label))
  publicKey hex := .ok hex
  isValidSignature key message signature := signature == utf8 key ++ message

def inlineHost (hostId publicKeyHex : String) : AllowedHost :=
  { hostId := hostId, publicKeyHex := some publicKeyHex, publicKeyFile := none }

def config (hosts : List AllowedHost) : AgentConfig where
  socketPath := "/tmp/agent.sock"
  hosts := some hosts
  hostPublicKeyHex := none
  hostPublicKeyFile := none
  agentKeyHex := none
  agentKeyFile := some "/tmp/agent.key"
  agentKeychainService := none
  agentKeychainAccount := none
  agentKeyId := none
  allowedFutureSkewMs := none
  requireConfirmation := none
  rateLimitWindowSeconds := none
  rateLimitMaxRequests := none

def body : AuthRequestBody where
  protocolVersion := 1
  requestId := "r"
  nonce := List.replicate 32 7
  createdAtMs := 1000
  expiresAtMs := 2000
  linuxHostId := "web"
  linuxHostname := "web"
  pamService := "sudo"
  pamUser := "alice"
  pamRuser := none
  pamRhost := none
  pamTty := none
  sudoCommand := none
  clientPid := none
  keyId := "host-key-1"
  alg := "ed25519"

/-- The request of `web` signed by the holder of a key. -/
def signedBy (key : String) : SignedAuthRequest where
  body := body
  signature := utf8 key ++ (body.canonicalBytes.toOption.getD [])

end SampleHosts

open KeyPlatform SampleHosts in
/-- With a wildcard entry beside it, a removed host is looked up under the wildcard
key, under which its requests were refused before. -/
theorem hosts_remove_keeps_wildcard :
    ∃ before after, SampleHosts.platform.runAll (config [])
        [.add (inlineHost "web" "aa"), .add (inlineHost "*" "bb")] = .ok before ∧
      SampleHosts.platform.runHosts before (.remove "web") = .ok after ∧
      (signedBy "bb").body.linuxHostId = "web" ∧
      ¬SampleHosts.platform.Accepts before (signedBy "bb") ∧
      SampleHosts.platform.Accepts after (signedBy "bb") := by
  refine ⟨config [inlineHost "web" "aa", inlineHost "*" "bb"], config [inlineHost "*" "bb"],
    by decide, by decide, rfl, ?_, ?_⟩
  · rintro ⟨verifiers, verifier, bytes, built, looked, encoded, signed⟩
    obtain rfl : [⟨"web", "aa"⟩, ⟨"*", "bb"⟩] = verifiers := Except.ok.inj built
    obtain rfl : (⟨"web", "aa"⟩ : HostVerifier String) = verifier := Option.some.inj looked
    have firstByte := congrArg List.head? (beq_iff_eq.mp signed)
    have signer : (signedBy "bb").signature.head? = some 0x62 := by decide
    rw [signer] at firstByte
    exact absurd (Option.some.inj firstByte) (by decide)
  · exact ⟨[⟨"*", "bb"⟩], ⟨"*", "bb"⟩, body.canonicalBytes.toOption.getD [], rfl, rfl,
      by decide, by decide⟩

open KeyPlatform SampleHosts in
/-- Removing one of two plain hosts is safe. -/
theorem hosts_remove_narrows_two_hosts :
    SampleHosts.platform.RemovalNarrows (config [inlineHost "web" "aa", inlineHost "db" "bb"])
      (config [inlineHost "db" "bb"]) "web" := by
  have remains : SampleHosts.platform.remaining
      (config [inlineHost "web" "aa", inlineHost "db" "bb"]) "web" = [inlineHost "db" "bb"] := by
    decide
  have safe : SampleHosts.platform.SafeToRemove
      (config [inlineHost "web" "aa", inlineHost "db" "bb"]) "web" := by
    refine .inr ⟨by rw [remains]; simp, .inr ⟨⟨?_, by decide⟩, by rw [remains]; decide⟩⟩
    intro host member
    simp only [config, Option.getD_some, List.mem_cons, List.not_mem_nil, or_false] at member
    rcases member with rfl | rfl
    · exact ⟨"aa", rfl⟩
    · exact ⟨"bb", rfl⟩
  exact (SampleHosts.platform.hosts_remove_narrows
    (config [inlineHost "web" "aa"]) _ _ [.add (inlineHost "db" "bb")] "web"
    (by decide) (by decide) safe).2
end Agent
end MacosAuth
