import MacosAuth.Agent.Listener
import MacosAuth.Effect.System

/-!
# Agents that share a socket path

Any number of agents start and end in any order, on the same or on different paths, and
each may be killed at any moment, which leaves its socket behind. The check for a socket
that is left over, the removal, the binding and the listening are separate calls, so that
they interleave with those of other agents.

A running listener keeps its path as long as three things do not happen: an agent probes
the path while another one has bound its socket and does not listen yet, or while the backlog
of the listener of another one is full, and an agent binds its socket right between the last
look of another one and the removal.
-/

namespace MacosAuth
namespace Agent
namespace Listener

open ConfigFile (Stat sameFile)
open Effect Effect.Program

/-! ## The file system and the agents -/

/-- What tells two files apart. -/
structure Identity where
  device : Nat
  inode : Nat
  format : UInt16
  deriving DecidableEq

def identityOf (st : Stat) : Identity :=
  ⟨st.device, st.inode, st.mode &&& 0xf000⟩

theorem sameFile_iff
    {lhs rhs : Stat} :
    sameFile lhs rhs = true ↔ identityOf lhs = identityOf rhs := by
  simp [sameFile, identityOf, and_assoc]

/-- A socket with a name listens, and there is room in its backlog. -/
def Stage.Ready (full : Identity -> Bool) : Stage -> Prop
  | .bound _ | .named _ _ => False
  | .listening _ st => full (identityOf st) = false
  | _ => True

/-- What a descriptor of a socket stands for. -/
inductive Endpoint
  | unbound
  | bound (identity : Identity)
  | listening (identity : Identity)
  deriving DecidableEq

/-- The paths of sockets, and the descriptors of the agents. -/
structure World (ι : Type) where
  entries : String -> Option Identity
  /-- The files that there are or have been. -/
  used : Identity -> Prop
  descriptors : ι -> Nat -> Option Endpoint
  alive : ι -> Bool
  /-- The backlog of a listener on this file has no room for a connection. -/
  full : Identity -> Bool

/-- The agents, the one that kills them, and all that connect to listeners. -/
inductive Party (ι : Type)
  | agent (index : ι)
  | signals
  | clients
  deriving DecidableEq

/-- Kill an agent. -/
structure Kill (ι : Type) where
  target : ι

/-- Connections have filled a backlog, or there is room in it again. -/
structure Crowd where
  identity : Identity
  full : Bool

@[reducible] def Party.Call {ι : Type} : Party ι -> Type
  | .agent _ => Listener.Call
  | .signals => Kill ι
  | .clients => Crowd

@[reducible] def Party.Answer {ι : Type} : (party : Party ι) -> party.Call -> Type
  | .agent _ => Listener.Call.Answer
  | .signals => fun _ => Unit
  | .clients => fun _ => Unit

namespace World

variable {ι : Type} [DecidableEq ι]

def setDescriptor
    (world : World ι)
    (index : ι)
    (fd : Nat)
    (endpoint : Option Endpoint) : World ι :=
  { world with
    descriptors := Function.update world.descriptors index
      (Function.update (world.descriptors index) fd endpoint) }

/-- A new socket file, which is none of those that there have been. -/
def addSocket
    (world : World ι)
    (index : ι)
    (fd : Nat)
    (path : String)
    (identity : Identity) : World ι :=
  { world with
    entries := Function.update world.entries path (some identity)
    used := fun other => other = identity ∨ world.used other
    descriptors := Function.update world.descriptors index
      (Function.update (world.descriptors index) fd (some (.bound identity))) }

def unlink (world : World ι) (path : String) : World ι :=
  { world with entries := Function.update world.entries path none }

/-- A killed agent has no descriptors, and its socket stays. -/
def kill (world : World ι) (index : ι) : World ι :=
  { world with
    descriptors := Function.update world.descriptors index fun _ => none
    alive := Function.update world.alive index false }

def crowd (world : World ι) (crowd : Crowd) : World ι :=
  { world with full := Function.update world.full crowd.identity crowd.full }

/-- How an agent is answered. Any call may fail, which changes nothing. A connection is
refused only if nobody listens or the backlog is full, and `bind` makes a new file. What
`lstat` reports beside the identity of a file is left open. -/
def Serves (world : World ι) (index : ι) :
    (request : Listener.Call) -> request.Answer -> World ι -> Prop
  | .lstat path, .ok st, after =>
      world.entries path = some (identityOf st) ∧ after = world
  | .socket, .ok fd, after =>
      world.descriptors index fd = none ∧
        after = world.setDescriptor index fd (some .unbound)
  | .connect _ path, .error code, after =>
      (code = connectionRefused -> ∀ identity, world.entries path = some identity ->
        world.full identity = false ->
          ∀ other fd, world.descriptors other fd ≠ some (.listening identity)) ∧
        after = world
  | .unlink path, .ok _, after => after = world.unlink path
  | .bind fd path, .ok _, after =>
      world.entries path = none ∧ ∃ identity, ¬world.used identity ∧
        after = world.addSocket index fd path identity
  | .listen fd _, .ok _, after =>
      ∃ identity, world.descriptors index fd = some (.bound identity) ∧
        after = world.setDescriptor index fd (some (.listening identity))
  | .close fd, _, after => after = world.setDescriptor index fd none
  | _, _, after => after = world

end World

/-- Agents on one machine. A killed agent makes no more calls. -/
def agents (ι : Type) [DecidableEq ι] :
    System (Party ι) Party.Call Party.Answer (World ι) where
  serves
    | .agent index, world => fun request answer after =>
        world.alive index = true ∧ world.Serves index request answer after
    | .signals, world => fun request _ after => after = world.kill request.target
    | .clients, world => fun request _ after => after = world.crowd request
  drifts _ _ := False

/-- What an agent is started with. -/
structure Setup where
  effectiveUID : UInt32
  path : String

def sendSignals {ι : Type} :
    List ι -> Effect.Program (Kill ι) (fun _ => Unit) Failure Unit
  | [] => return ()
  | target :: rest => do
      perform (Kill.mk target)
      sendSignals rest

def fillBacklogs :
    List Crowd -> Effect.Program Crowd (fun _ => Unit) Failure Unit
  | [] => return ()
  | crowd :: rest => do
      perform crowd
      fillBacklogs rest

/-- The agents, the kills and the clients. -/
def parties {ι : Type} (platform : Platform) (setup : ι -> Setup) (kills : List ι)
    (crowds : List Crowd) :
    Pool (@Party.Call ι) Party.Answer (fun _ => Failure) (fun _ => Unit)
  | .agent index => runServe platform (setup index).effectiveUID (setup index).path
  | .signals => sendSignals kills
  | .clients => fillBacklogs crowds

/-! ## What holds between the agents -/

section Invariant

variable {ι : Type} [DecidableEq ι]
variable {place : ι -> String} {stages : ι -> Stage} {world after : World ι}
variable {index actor : ι} {stage : Stage}

/-- What an agent has at a stage. -/
def Owns (world : World ι) (index : ι) (path : String) : Stage -> Prop
  | .bound fd => ∃ identity, world.entries path = some identity ∧
      world.descriptors index fd = some (.bound identity)
  | .named fd st => world.entries path = some (identityOf st) ∧
      world.descriptors index fd = some (.bound (identityOf st))
  | .listening fd st => world.entries path = some (identityOf st) ∧
      world.descriptors index fd = some (.listening (identityOf st))
  | .seen st | .refused st | .closed st => world.used (identityOf st)
  | _ => True

/-- Another agent has its socket on the path of this one. -/
def HeldByOther
    (place : ι -> String)
    (stages : ι -> Stage)
    (world : World ι)
    (index : ι) : Prop :=
  ∃ other, other ≠ index ∧ world.alive other = true ∧ place other = place index ∧
    (stages other).Holds

/-- What the other agents do not have while an agent is at a stage. -/
def Wary (world : World ι) (path : String) (heldByOther : Prop) : Stage -> Prop
  | .refused st | .closed st =>
      heldByOther -> world.entries path ≠ some (identityOf st)
  | .condemned _ | .departing _ | .bound _ | .named _ _ | .listening _ _ => ¬heldByOther
  | _ => True

/-- An agent has what belongs to its stage, and the others do not. -/
structure Settled
    (place : ι -> String)
    (stages : ι -> Stage)
    (world : World ι)
    (index : ι) : Prop where
  owns : Owns world index (place index) (stages index)
  wary : Wary world (place index) (HeldByOther place stages world index) (stages index)

/-- All files are used ones, and all agents that are alive are settled. -/
structure Tidy (place : ι -> String) (stages : ι -> Stage) (world : World ι) : Prop where
  used : ∀ path identity, world.entries path = some identity -> world.used identity
  settled : ∀ index, world.alive index = true -> Settled place stages world index

omit [DecidableEq ι] in
/-- The file of an agent is there. -/
theorem Owns.exists_entry
    {path : String}
    (owns : Owns world index path stage)
    (holds : stage.Holds) :
    ∃ identity, world.entries path = some identity := by
  cases stage with
  | bound fd => exact owns.imp fun _ both => both.1
  | named fd st => exact ⟨_, owns.1⟩
  | listening fd st => exact ⟨_, owns.1⟩
  | _ => exact holds.elim

omit [DecidableEq ι] in
theorem Owns.keep
    {path : String}
    (owns : Owns world index path stage)
    (entry : after.entries path = world.entries path)
    (used : ∀ identity, world.used identity -> after.used identity)
    (descriptors : ∀ fd endpoint, world.descriptors index fd = some endpoint ->
      endpoint ≠ .unbound -> after.descriptors index fd = some endpoint) :
    Owns after index path stage := by
  cases stage with
  | bound fd =>
      obtain ⟨identity, present, bound⟩ := owns
      exact ⟨identity, entry.trans present, descriptors fd _ bound (by simp)⟩
  | named fd st => exact ⟨entry.trans owns.1, descriptors fd _ owns.2 (by simp)⟩
  | listening fd st => exact ⟨entry.trans owns.1, descriptors fd _ owns.2 (by simp)⟩
  | seen st => exact used _ owns
  | refused st => exact used _ owns
  | closed st => exact used _ owns
  | _ => trivial

omit [DecidableEq ι] in
theorem Wary.keep
    {path : String}
    {held held' : Prop}
    (wary : Wary world path held stage)
    (entry : after.entries path = world.entries path)
    (fewer : held' -> held) :
    Wary after path held' stage := by
  cases stage with
  | refused st => exact fun isHeld => entry ▸ wary (fewer isHeld)
  | closed st => exact fun isHeld => entry ▸ wary (fewer isHeld)
  | condemned st => exact fun isHeld => wary (fewer isHeld)
  | departing st => exact fun isHeld => wary (fewer isHeld)
  | bound fd => exact fun isHeld => wary (fewer isHeld)
  | named fd st => exact fun isHeld => wary (fewer isHeld)
  | listening fd st => exact fun isHeld => wary (fewer isHeld)
  | _ => trivial

/-- An agent that has no socket yet makes no other agent hold a path. -/
theorem HeldByOther.of_update
    (alive : ∀ other, after.alive other = true -> world.alive other = true)
    (holds : stage.Holds -> (stages actor).Holds)
    (held : HeldByOther place (Function.update stages actor stage) after index) :
    HeldByOther place stages world index := by
  obtain ⟨other, different, isAlive, same, otherHolds⟩ := held
  refine ⟨other, different, alive other isAlive, same, ?_⟩
  by_cases isActor : other = actor
  · subst isActor
    rw [Function.update_self] at otherHolds
    exact holds otherHolds
  · rwa [Function.update_of_ne isActor] at otherHolds

/-- The stage of an agent does not matter to what others hold. -/
theorem HeldByOther.of_update_self
    (alive : ∀ other, after.alive other = true -> world.alive other = true)
    (held : HeldByOther place (Function.update stages actor stage) after actor) :
    HeldByOther place stages world actor := by
  obtain ⟨other, different, isAlive, same, holds⟩ := held
  rw [Function.update_of_ne different] at holds
  exact ⟨other, different, alive other isAlive, same, holds⟩

/-- A call that leaves the files as they are and binds nothing keeps the order. -/
theorem Tidy.steady
    (tidy : Tidy place stages world)
    (entries : after.entries = world.entries)
    (used : after.used = world.used)
    (alive : after.alive = world.alive)
    (descriptors : ∀ other, other ≠ actor ->
      after.descriptors other = world.descriptors other)
    (holds : stage.Holds -> (stages actor).Holds)
    (owns : Owns after actor (place actor) stage)
    (wary : Wary after (place actor) (HeldByOther place stages world actor) stage) :
    Tidy place (Function.update stages actor stage) after where
  used path identity present := by
    rw [used]
    exact tidy.used path identity (entries ▸ present)
  settled index isAlive := by
    have alive' : ∀ other, after.alive other = true -> world.alive other = true :=
      fun other => alive ▸ id
    by_cases isActor : index = actor
    · subst isActor
      constructor
      · rwa [Function.update_self]
      · rw [Function.update_self]
        exact wary.keep rfl (HeldByOther.of_update_self alive')
    · have settled := tidy.settled index (alive' index isAlive)
      constructor
      · rw [Function.update_of_ne isActor]
        refine settled.owns.keep (by rw [entries]) (by rw [used]; exact fun _ => id) ?_
        rw [descriptors index isActor]
        exact fun _ _ same _ => same
      · rw [Function.update_of_ne isActor]
        exact settled.wary.keep (by rw [entries]) (HeldByOther.of_update alive' holds)

/-- A call that changes neither the files nor the stage keeps the order. -/
theorem Tidy.same_stage
    (tidy : Tidy place stages world)
    (isAlive : world.alive actor = true)
    (entries : after.entries = world.entries)
    (used : after.used = world.used)
    (alive : after.alive = world.alive)
    (others : ∀ other, other ≠ actor -> after.descriptors other = world.descriptors other)
    (descriptors : ∀ fd endpoint, world.descriptors actor fd = some endpoint ->
      endpoint ≠ .unbound -> after.descriptors actor fd = some endpoint) :
    Tidy place (Function.update stages actor (stages actor)) after := by
  have settled := tidy.settled actor isAlive
  refine tidy.steady entries used alive others id ?_ ?_
  · exact settled.owns.keep (by rw [entries]) (by rw [used]; exact fun _ => id) descriptors
  · exact settled.wary.keep (by rw [entries]) id

theorem Tidy.unchanged
    (tidy : Tidy place stages world)
    (isAlive : world.alive actor = true) :
    Tidy place (Function.update stages actor (stages actor)) world :=
  tidy.same_stage isAlive rfl rfl rfl (fun _ _ => rfl) fun _ _ same _ => same

/-! ## One call -/

@[simp] theorem World.setDescriptor_self
    (world : World ι)
    (fd : Nat)
    (endpoint : Option Endpoint) :
    (world.setDescriptor actor fd endpoint).descriptors actor =
      Function.update (world.descriptors actor) fd endpoint := by
  simp [World.setDescriptor]

theorem World.setDescriptor_of_ne
    (world : World ι)
    {other : ι}
    (different : other ≠ actor)
    (fd : Nat)
    (endpoint : Option Endpoint) :
    (world.setDescriptor actor fd endpoint).descriptors other = world.descriptors other := by
  simp [World.setDescriptor, different]

/-- A new descriptor is none of those in use. -/
theorem Tidy.socket
    (tidy : Tidy place stages world)
    (isAlive : world.alive actor = true)
    {fd : Nat}
    (unused : world.descriptors actor fd = none) :
    Tidy place (Function.update stages actor (stages actor))
      (world.setDescriptor actor fd (some .unbound)) := by
  refine tidy.same_stage isAlive rfl rfl rfl ?_ ?_
  · exact fun other different => world.setDescriptor_of_ne different fd _
  · intro target endpoint present _
    rw [World.setDescriptor_self, Function.update_of_ne ?_, present]
    rintro rfl
    cases unused.symm.trans present

/-- A file that is found is a used one. A file that is found again is not that of another
agent, as far as the agent knew what it had found. -/
theorem Tidy.looked
    (tidy : Tidy place stages world)
    (isAlive : world.alive actor = true)
    {path : String}
    {st : Stat}
    (ownPath : (stages actor).Looks -> path = place actor)
    (found : world.entries path = some (identityOf st)) :
    Tidy place (Function.update stages actor ((stages actor).looked st)) world := by
  have settled := tidy.settled actor isAlive
  have used := tidy.used path _ found
  have owns := settled.owns
  have wary := settled.wary
  have keep : ∀ stage : Stage, (stage.Holds -> (stages actor).Holds) ->
      Owns world actor (place actor) stage ->
      Wary world (place actor) (HeldByOther place stages world actor) stage ->
        Tidy place (Function.update stages actor stage) world :=
    fun stage => tidy.steady rfl rfl rfl fun _ _ => rfl
  cases current : stages actor with
  | starting => exact keep (.seen st) (fun holds => holds.elim) used trivial
  | seen before => exact keep (.seen st) (fun holds => holds.elim) used trivial
  | condemned before => exact keep (.seen st) (fun holds => holds.elim) used trivial
  | departing before => exact keep (.seen st) (fun holds => holds.elim) used trivial
  | refused before =>
      rw [current] at wary ownPath
      obtain rfl := ownPath trivial
      by_cases agrees : sameFile before st = true
      · simp only [Stage.looked, agrees, if_true]
        refine keep (.condemned before) (fun holds => holds.elim) trivial fun held => ?_
        exact wary held (found.trans (congrArg some (sameFile_iff.mp agrees).symm))
      · simp only [Stage.looked, agrees]
        exact keep .starting (fun holds => holds.elim) trivial trivial
  | closed own =>
      rw [current] at wary ownPath
      obtain rfl := ownPath trivial
      by_cases agrees : sameFile own st = true
      · simp only [Stage.looked, agrees, if_true]
        refine keep (.departing own) (fun holds => holds.elim) trivial fun held => ?_
        exact wary held (found.trans (congrArg some (sameFile_iff.mp agrees).symm))
      · simp only [Stage.looked, agrees]
        exact keep .starting (fun holds => holds.elim) trivial trivial
  | bound fd =>
      rw [current] at owns wary ownPath
      obtain rfl := ownPath trivial
      obtain ⟨identity, present, bound⟩ := owns
      obtain rfl := Option.some.inj (present.symm.trans found)
      exact keep (.named fd st) (fun _ => current ▸ trivial) ⟨present, bound⟩ wary
  | named fd own =>
      rw [current] at owns wary
      exact keep (.named fd own) (fun _ => current ▸ trivial) owns wary
  | listening fd own =>
      rw [current] at owns wary
      exact keep (.listening fd own) (fun _ => current ▸ trivial) owns wary

/-- When a connection is refused, no other agent has its socket on the path: it would be
listening, with room in its backlog. -/
theorem Tidy.refuse
    (tidy : Tidy place stages world)
    (isAlive : world.alive actor = true)
    (nobodyListens : ∀ identity, world.entries (place actor) = some identity ->
      world.full identity = false ->
        ∀ other fd, world.descriptors other fd ≠ some (.listening identity))
    (ready : ∀ other, other ≠ actor -> place other = place actor ->
      world.alive other = true -> (stages other).Ready world.full) :
    Tidy place (Function.update stages actor (stages actor).refuse) world := by
  have settled := tidy.settled actor isAlive
  cases current : stages actor with
  | seen st =>
      have owns := settled.owns
      rw [current] at owns
      refine tidy.steady rfl rfl rfl (fun _ _ => rfl) (fun holds => holds.elim) owns ?_
      rintro ⟨other, different, otherAlive, same, holds⟩
      have otherOwns := (tidy.settled other otherAlive).owns
      have otherReady := ready other different same otherAlive
      cases otherStage : stages other with
      | listening fd own =>
          rw [otherStage, same] at otherOwns
          rw [otherStage] at otherReady
          exact absurd otherOwns.2 (nobodyListens _ otherOwns.1 otherReady other fd)
      | bound fd =>
          rw [otherStage] at otherReady
          exact otherReady.elim
      | named fd own =>
          rw [otherStage] at otherReady
          exact otherReady.elim
      | _ =>
          rw [otherStage] at holds
          exact holds.elim
  | _ =>
      have same := tidy.unchanged isAlive
      rw [current] at same
      exact same

/-- Only a file that is no agent's is removed. -/
theorem Tidy.unlink
    (tidy : Tidy place stages world)
    (isAlive : world.alive actor = true)
    (removes : (stages actor).Removes) :
    Tidy place (Function.update stages actor .starting) (world.unlink (place actor)) := by
  have settled := tidy.settled actor isAlive
  have alone : ¬HeldByOther place stages world actor := by
    have wary := settled.wary
    cases current : stages actor with
    | condemned st =>
        rw [current] at wary
        exact wary
    | departing st =>
        rw [current] at wary
        exact wary
    | _ =>
        rw [current] at removes
        exact removes.elim
  have entry_of_ne : ∀ path, path ≠ place actor ->
      (world.unlink (place actor)).entries path = world.entries path :=
    fun path different => Function.update_of_ne different _ _
  have gone : (world.unlink (place actor)).entries (place actor) = none :=
    Function.update_self ..
  constructor
  · intro path identity present
    by_cases same : path = place actor
    · subst same
      cases gone.symm.trans present
    · exact tidy.used path identity ((entry_of_ne path same).symm.trans present)
  · intro index indexAlive
    have fewer : HeldByOther place (Function.update stages actor .starting)
        (world.unlink (place actor)) index -> HeldByOther place stages world index :=
      HeldByOther.of_update (fun _ => id) fun holds => holds.elim
    by_cases isActor : index = actor
    · subst isActor
      constructor <;> rw [Function.update_self] <;> trivial
    · have indexSettled := tidy.settled index indexAlive
      by_cases same : place index = place actor
      · have notHolding : ¬(stages index).Holds := fun holds =>
          alone ⟨index, isActor, indexAlive, same, holds⟩
        have unheld : ¬HeldByOther place (Function.update stages actor .starting)
            (world.unlink (place actor)) index := by
          rintro ⟨other, different, otherAlive, otherSame, holds⟩
          by_cases otherActor : other = actor
          · subst otherActor
            rw [Function.update_self] at holds
            exact holds
          · rw [Function.update_of_ne otherActor] at holds
            exact alone ⟨other, otherActor, otherAlive, otherSame.trans same, holds⟩
        have owns := indexSettled.owns
        constructor <;> rw [Function.update_of_ne isActor]
        · cases current : stages index with
          | bound fd => exact absurd (current ▸ trivial) notHolding
          | named fd st => exact absurd (current ▸ trivial) notHolding
          | listening fd st => exact absurd (current ▸ trivial) notHolding
          | _ =>
              rw [current] at owns
              exact owns
        · cases current : stages index <;>
            first | trivial | exact unheld | exact fun held => absurd held unheld
      · constructor <;> rw [Function.update_of_ne isActor]
        · exact indexSettled.owns.keep (entry_of_ne _ same) (fun _ => id)
            fun _ _ present _ => present
        · exact indexSettled.wary.keep (entry_of_ne _ same) fewer

/-- A socket is bound where there was no file, so that no other agent has its socket
there. -/
theorem Tidy.bind
    (tidy : Tidy place stages world)
    (isAlive : world.alive actor = true)
    {fd : Nat}
    {identity : Identity}
    (missing : world.entries (place actor) = none)
    (fresh : ¬world.used identity)
    (noRemoval : ∀ other, other ≠ actor -> place other = place actor ->
      world.alive other = true -> ¬(stages other).Removes) :
    Tidy place (Function.update stages actor (.bound fd))
      (world.addSocket actor fd (place actor) identity) := by
  have entry_of_ne : ∀ path, path ≠ place actor ->
      (world.addSocket actor fd (place actor) identity).entries path = world.entries path :=
    fun path different => Function.update_of_ne different _ _
  have present : (world.addSocket actor fd (place actor) identity).entries (place actor) =
      some identity :=
    Function.update_self ..
  have nobody : ∀ other, world.alive other = true -> place other = place actor ->
      ¬(stages other).Holds := by
    intro other otherAlive same holds
    obtain ⟨found, entry⟩ := (tidy.settled other otherAlive).owns.exists_entry holds
    rw [same, missing] at entry
    cases entry
  constructor
  · intro path found entry
    by_cases same : path = place actor
    · subst same
      exact .inl (Option.some.inj (entry.symm.trans present))
    · exact .inr (tidy.used path found ((entry_of_ne path same).symm.trans entry))
  · intro index indexAlive
    by_cases isActor : index = actor
    · subst isActor
      constructor <;> rw [Function.update_self]
      · exact ⟨identity, present, by simp [World.addSocket]⟩
      · rintro ⟨other, different, otherAlive, same, holds⟩
        rw [Function.update_of_ne different] at holds
        exact nobody other otherAlive same holds
    · have settled := tidy.settled index indexAlive
      have descriptors : (world.addSocket actor fd (place actor) identity).descriptors index =
          world.descriptors index :=
        Function.update_of_ne isActor _ _
      by_cases same : place index = place actor
      · have notHolding := nobody index indexAlive same
        have notRemoving := noRemoval index isActor same indexAlive
        have owns := settled.owns
        constructor <;> rw [Function.update_of_ne isActor]
        · cases current : stages index with
          | bound fd => exact absurd (current ▸ trivial) notHolding
          | named fd st => exact absurd (current ▸ trivial) notHolding
          | listening fd st => exact absurd (current ▸ trivial) notHolding
          | seen st =>
              rw [current] at owns
              exact .inr owns
          | refused st =>
              rw [current] at owns
              exact .inr owns
          | closed st =>
              rw [current] at owns
              exact .inr owns
          | _ => trivial
        · have differs : ∀ st, world.used (identityOf st) ->
              (world.addSocket actor fd (place actor) identity).entries (place index) ≠
                some (identityOf st) := by
            intro st isUsed entry
            rw [same, present] at entry
            exact fresh (Option.some.inj entry ▸ isUsed)
          cases current : stages index with
          | bound fd => exact absurd (current ▸ trivial) notHolding
          | named fd st => exact absurd (current ▸ trivial) notHolding
          | listening fd st => exact absurd (current ▸ trivial) notHolding
          | condemned st => exact absurd (current ▸ trivial) notRemoving
          | departing st => exact absurd (current ▸ trivial) notRemoving
          | refused st =>
              rw [current] at owns
              exact fun _ => differs st owns
          | closed st =>
              rw [current] at owns
              exact fun _ => differs st owns
          | _ => trivial
      · have fewer : HeldByOther place (Function.update stages actor (.bound fd))
            (world.addSocket actor fd (place actor) identity) index ->
              HeldByOther place stages world index := by
          rintro ⟨other, different, otherAlive, otherSame, holds⟩
          refine ⟨other, different, otherAlive, otherSame, ?_⟩
          rwa [Function.update_of_ne ?_] at holds
          rintro rfl
          exact same otherSame.symm
        constructor <;> rw [Function.update_of_ne isActor]
        · refine settled.owns.keep (entry_of_ne _ same) (fun _ => .inr) ?_
          rw [descriptors]
          exact fun _ _ found _ => found
        · exact settled.wary.keep (entry_of_ne _ same) fewer

/-- A socket that was looked at starts to listen. -/
theorem Tidy.listen
    (tidy : Tidy place stages world)
    (isAlive : world.alive actor = true)
    {fd : Nat}
    {st : Stat}
    {identity : Identity}
    (named : stages actor = .named fd st)
    (bound : world.descriptors actor fd = some (.bound identity)) :
    Tidy place (Function.update stages actor (.listening fd st))
      (world.setDescriptor actor fd (some (.listening identity))) := by
  have settled := tidy.settled actor isAlive
  have owns := settled.owns
  have wary := settled.wary
  rw [named] at owns wary
  obtain rfl := Endpoint.bound.inj (Option.some.inj (owns.2.symm.trans bound))
  refine tidy.steady rfl rfl rfl ?_ (fun _ => named ▸ trivial) ⟨owns.1, ?_⟩ wary
  · exact fun other different => world.setDescriptor_of_ne different fd _
  · rw [World.setDescriptor_self, Function.update_self]

/-- A socket that is closed leaves its file behind, which no other agent takes for its
own. -/
theorem Tidy.close
    (tidy : Tidy place stages world)
    (isAlive : world.alive actor = true)
    (fd : Nat) :
    Tidy place (Function.update stages actor ((stages actor).close fd))
      (world.setDescriptor actor fd none) := by
  have settled := tidy.settled actor isAlive
  have owns := settled.owns
  have wary := settled.wary
  have others : ∀ other, other ≠ actor ->
      (world.setDescriptor actor fd none).descriptors other = world.descriptors other :=
    fun other different => world.setDescriptor_of_ne different fd _
  have keep : ∀ stage : Stage, (stage.Holds -> (stages actor).Holds) ->
      Owns (world.setDescriptor actor fd none) actor (place actor) stage ->
      Wary world (place actor) (HeldByOther place stages world actor) stage ->
        Tidy place (Function.update stages actor stage) (world.setDescriptor actor fd none) :=
    fun stage holds owns wary =>
      tidy.steady rfl rfl rfl others holds owns (wary.keep rfl id)
  have kept : ∀ own, own ≠ fd ->
      (world.setDescriptor actor fd none).descriptors actor own = world.descriptors actor own := by
    intro own different
    rw [World.setDescriptor_self, Function.update_of_ne different]
  cases current : stages actor with
  | bound own =>
      rw [current] at owns wary
      by_cases same : own = fd
      · simp only [Stage.close, same, if_true]
        exact keep .starting (fun holds => holds.elim) trivial trivial
      · simp only [Stage.close, same, if_false]
        obtain ⟨identity, present, bound⟩ := owns
        exact keep (.bound own) (fun _ => current ▸ trivial)
          ⟨identity, present, (kept own same).trans bound⟩ wary
  | named own st =>
      rw [current] at owns wary
      by_cases same : own = fd
      · simp only [Stage.close, same, if_true]
        exact keep (.closed st) (fun holds => holds.elim) (tidy.used _ _ owns.1)
          fun held => absurd held wary
      · simp only [Stage.close, same, if_false]
        exact keep (.named own st) (fun _ => current ▸ trivial)
          ⟨owns.1, (kept own same).trans owns.2⟩ wary
  | listening own st =>
      rw [current] at owns wary
      by_cases same : own = fd
      · simp only [Stage.close, same, if_true]
        exact keep (.closed st) (fun holds => holds.elim) (tidy.used _ _ owns.1)
          fun held => absurd held wary
      · simp only [Stage.close, same, if_false]
        exact keep (.listening own st) (fun _ => current ▸ trivial)
          ⟨owns.1, (kept own same).trans owns.2⟩ wary
  | _ =>
      rw [current] at owns wary
      exact keep _ (fun holds => holds.elim) owns wary

/-- A killed agent no longer counts. -/
theorem Tidy.kill
    (tidy : Tidy place stages world)
    (target : ι) :
    Tidy place stages (world.kill target) where
  used := tidy.used
  settled index isAlive := by
    have different : index ≠ target := by
      rintro rfl
      simp [World.kill] at isAlive
    have wasAlive : ∀ other, (world.kill target).alive other = true ->
        world.alive other = true := by
      intro other otherAlive
      by_cases same : other = target
      · subst same
        simp [World.kill] at otherAlive
      · simpa [World.kill, same] using otherAlive
    have settled := tidy.settled index (wasAlive index isAlive)
    constructor
    · refine settled.owns.keep rfl (fun _ => id) fun fd endpoint present _ => ?_
      simpa [World.kill, different] using present
    · refine settled.wary.keep rfl ?_
      rintro ⟨other, otherDifferent, otherAlive, same, holds⟩
      exact ⟨other, otherDifferent, wasAlive other otherAlive, same, holds⟩

omit [DecidableEq ι] in
/-- The order does not depend on the backlogs. -/
theorem Tidy.crowd
    (tidy : Tidy place stages world)
    (crowd : Crowd) :
    Tidy place stages (world.crowd crowd) where
  used := tidy.used
  settled index isAlive :=
    have settled := tidy.settled index isAlive
    ⟨settled.owns.keep rfl (fun _ => id) fun _ _ present _ => present,
      settled.wary.keep rfl id⟩

/-- Every answered call of an agent keeps the order, if the other agents are ready when a
connection is refused, and no other agent is about to remove a file when a socket is bound. -/
theorem Tidy.step
    (tidy : Tidy place stages world)
    {past : List SocketEvent}
    (current : stages actor = stageOf past)
    {request : Listener.Call}
    {answer : request.Answer}
    (allowed : (contract (place actor)).allows past request)
    (isAlive : world.alive actor = true)
    (served : world.Serves actor request answer after)
    (ready : ∀ fd path, (⟨request, answer⟩ : SocketEvent) =
        ⟨.connect fd path, .error connectionRefused⟩ ->
      ∀ other, other ≠ actor -> place other = place actor -> world.alive other = true ->
        (stages other).Ready world.full)
    (noRemoval : ∀ fd path, (⟨request, answer⟩ : SocketEvent) = ⟨.bind fd path, .ok ()⟩ ->
      ∀ other, other ≠ actor -> place other = place actor -> world.alive other = true ->
        ¬(stages other).Removes) :
    Tidy place (Function.update stages actor ((stages actor).after ⟨request, answer⟩))
      after := by
  have same := tidy.unchanged isAlive
  cases request with
  | lstat path =>
      cases answer with
      | error code => exact (show after = world from served) ▸ same
      | ok st =>
          obtain ⟨found, rfl⟩ := served
          exact tidy.looked isAlive (fun looks => allowed (current ▸ looks)) found
  | socket =>
      cases answer with
      | error code => exact (show after = world from served) ▸ same
      | ok fd =>
          obtain ⟨unused, rfl⟩ := served
          exact tidy.socket isAlive unused
  | connect fd path =>
      cases answer with
      | ok connected => exact (show after = world from served) ▸ same
      | error code =>
          obtain ⟨nobodyListens, rfl⟩ := served
          obtain rfl : path = place actor := allowed
          by_cases refusal : code = connectionRefused
          · simp only [Stage.after, refusal, if_true]
            refine tidy.refuse isAlive (nobodyListens refusal) (ready fd (place actor) ?_)
            rw [refusal]
          · simp only [Stage.after, refusal, if_false]
            exact same
  | unlink path =>
      obtain ⟨rfl, removes⟩ := allowed
      rw [← current] at removes
      cases answer with
      | ok unlinked =>
          obtain rfl : after = world.unlink (place actor) := served
          exact tidy.unlink isAlive removes
      | error code =>
          obtain rfl : after = world := served
          exact tidy.steady rfl rfl rfl (fun _ _ => rfl) (fun holds => holds.elim) trivial
            trivial
  | bind fd path =>
      obtain rfl : path = place actor := allowed
      cases answer with
      | error code => exact (show after = world from served) ▸ same
      | ok bound =>
          obtain ⟨missing, identity, fresh, rfl⟩ := served
          exact tidy.bind isAlive missing fresh (noRemoval fd (place actor) rfl)
  | listen fd backlog =>
      cases answer with
      | error code => exact (show after = world from served) ▸ same
      | ok listening =>
          obtain ⟨st, named⟩ := allowed
          rw [← current] at named
          obtain ⟨identity, bound, rfl⟩ := served
          simp only [Stage.after, named, Stage.listen, if_true]
          exact tidy.listen isAlive named bound
  | close fd =>
      obtain rfl : after = world.setDescriptor actor fd none := served
      exact tidy.close isAlive fd
  | _ => exact (show after = world from served) ▸ same

end Invariant

/-! ## Runs -/

section Runs

variable {ι : Type} [DecidableEq ι]

/-- One answered call of an agent, or one kill. -/
abbrev ListenerEntry (ι : Type) := Entry (@Party.Call ι) Party.Answer

/-- The stage of an agent after a part of a run. -/
def stageIn (history : List (ListenerEntry ι)) (index : ι) : Stage :=
  stageOf (traceOf (Party.agent index) history)

def Killed (history : List (ListenerEntry ι)) (index : ι) : Prop :=
  (⟨.signals, ⟨index⟩, ()⟩ : ListenerEntry ι) ∈ history

/-- The full backlogs after a part of a run. -/
def fullIn (history : List (ListenerEntry ι)) : Identity -> Bool :=
  (traceOf Party.clients history).foldl
    (fun full event => Function.update full event.call.identity event.call.full) fun _ => false

/-- No connection is refused while another agent has bound the path and does not listen
yet or has a full backlog, and no socket is bound while another agent is about to remove the
file of the path. Killed agents do not count. -/
structure KeptApart (place : ι -> String) (history : List (ListenerEntry ι)) : Prop where
  ready : ∀ past future index fd path,
    history = past ++ ⟨.agent index, .connect fd path, .error connectionRefused⟩ :: future ->
      ∀ other, other ≠ index -> place other = place index -> ¬Killed past other ->
        (stageIn past other).Ready (fullIn past)
  noRemoval : ∀ past future index fd path,
    history = past ++ ⟨.agent index, .bind fd path, .ok ()⟩ :: future ->
      ∀ other, other ≠ index -> place other = place index -> ¬Killed past other ->
        ¬(stageIn past other).Removes

/-- All agents are alive, the files that are there are used ones, and no backlog is full. -/
structure World.Begins (world : World ι) : Prop where
  used : ∀ path identity, world.entries path = some identity -> world.used identity
  alive : ∀ index, world.alive index = true
  full : ∀ identity, world.full identity = false

variable {place : ι -> String} {platform : Platform} {setup : ι -> Setup} {kills : List ι}
variable {crowds : List Crowd}
variable {history : List (ListenerEntry ι)} {start world : World ι}
variable {pool : Pool (@Party.Call ι) Party.Answer (fun _ => Failure) (fun _ => Unit)}

/-- The socket path of an agent. -/
def placeOf (platform : Platform) (setup : ι -> Setup) (index : ι) : String :=
  socketPath platform (setup index).path

theorem KeptApart.of_append
    {more : List (ListenerEntry ι)}
    (apart : KeptApart place (history ++ more)) :
    KeptApart place history where
  ready past future index fd path split := by
    refine apart.ready past (future ++ more) index fd path ?_
    rw [split, List.append_assoc, List.cons_append]
  noRemoval past future index fd path split := by
    refine apart.noRemoval past (future ++ more) index fd path ?_
    rw [split, List.append_assoc, List.cons_append]

/-- An agent on its own is kept apart from the others. -/
theorem KeptApart.alone
    {actor : ι}
    (own : ∀ entry ∈ history, entry.thread = .agent actor) :
    KeptApart place history := by
  have starting : ∀ past future index event, history = past ++ ⟨.agent index, event⟩ :: future ->
      ∀ other, other ≠ index -> stageIn past other = .starting := by
    intro past future index event split other different
    have isActor : Party.agent index = .agent actor := own ⟨.agent index, event⟩ (by simp [split])
    unfold stageIn
    rw [traceOf_eq_nil, stageOf_nil]
    intro entry member
    rw [own entry (by simp [split, member]), ← isActor]
    simpa using Ne.symm different
  constructor
  · intro past future index fd path split other different _ _
    rw [starting past future index _ split other different]
    exact trivial
  · intro past future index fd path split other different _ _
    rw [starting past future index _ split other different]
    exact id

/-- More calls without a refusal and without a new socket keep the agents apart. -/
theorem KeptApart.append
    {more : List (ListenerEntry ι)}
    (apart : KeptApart place history)
    (noRefusal : ∀ index fd path,
      (⟨.agent index, .connect fd path, .error connectionRefused⟩ : ListenerEntry ι) ∉ more)
    (noBind : ∀ index fd path,
      (⟨.agent index, .bind fd path, .ok ()⟩ : ListenerEntry ι) ∉ more) :
    KeptApart place (history ++ more) := by
  have earlier {past future : List (ListenerEntry ι)} {entry : ListenerEntry ι}
      (notLater : entry ∉ more)
      (split : history ++ more = past ++ entry :: future) :
      ∃ rest, history = past ++ entry :: rest := by
    rcases List.append_eq_append_iff.mp split with ⟨middle, rfl, rest⟩ | ⟨middle, rfl, rest⟩
    · refine (notLater ?_).elim
      simp [rest]
    · cases middle with
      | nil =>
          refine (notLater ?_).elim
          rw [← List.nil_append more, ← rest]
          exact List.mem_cons_self
      | cons first middle =>
          obtain ⟨rfl, -⟩ := List.cons.inj rest
          exact ⟨middle, rfl⟩
  constructor
  · intro past future index fd path split
    obtain ⟨rest, before⟩ := earlier (noRefusal index fd path) split
    exact apart.ready past rest index fd path before
  · intro past future index fd path split
    obtain ⟨rest, before⟩ := earlier (noBind index fd path) split
    exact apart.noRemoval past rest index fd path before

theorem stageIn_agent
    (history : List (ListenerEntry ι))
    (index : ι)
    (event : SocketEvent) :
    (fun other => stageIn (history ++ [⟨.agent index, event⟩]) other) =
      Function.update (stageIn history) index ((stageIn history index).after event) := by
  funext other
  by_cases same : other = index
  · subst same
    rw [Function.update_self]
    unfold stageIn
    rw [traceOf_append, traceOf_own, stageOf_snoc]
  · rw [Function.update_of_ne same]
    unfold stageIn
    rw [traceOf_append, traceOf_other (by simpa using Ne.symm same), List.append_nil]

theorem stageIn_clients
    (history : List (ListenerEntry ι))
    (event : Event Crowd fun _ => Unit) :
    stageIn (history ++ [⟨.clients, event⟩]) = stageIn history := by
  funext other
  unfold stageIn
  rw [traceOf_append, traceOf_other (by simp), List.append_nil]

theorem fullIn_clients
    (history : List (ListenerEntry ι))
    (crowd : Crowd) :
    fullIn (history ++ [⟨.clients, crowd, ()⟩]) =
      Function.update (fullIn history) crowd.identity crowd.full := by
  unfold fullIn
  rw [traceOf_append, traceOf_own, List.foldl_append]
  rfl

/-- Only clients change backlogs. -/
theorem fullIn_of_ne
    (history : List (ListenerEntry ι))
    (party : Party ι)
    (different : party ≠ .clients)
    (event : Event party.Call party.Answer) :
    fullIn (history ++ [⟨party, event⟩]) = fullIn history := by
  unfold fullIn
  rw [traceOf_append, traceOf_other different, List.append_nil]

theorem stageIn_signals
    (history : List (ListenerEntry ι))
    (event : Event (Kill ι) fun _ => Unit) :
    stageIn (history ++ [⟨.signals, event⟩]) = stageIn history := by
  funext other
  unfold stageIn
  rw [traceOf_append, traceOf_other (by simp), List.append_nil]

omit [DecidableEq ι] in
theorem killed_snoc
    {entry : ListenerEntry ι}
    {index : ι} :
    Killed (history ++ [entry]) index ↔
      Killed history index ∨ (⟨.signals, ⟨index⟩, ()⟩ : ListenerEntry ι) = entry := by
  simp [Killed]

/-- Only kills stop agents, and only clients change backlogs. -/
theorem keeps_of_serves
    {after : World ι}
    {actor : ι}
    {request : Listener.Call}
    {answer : request.Answer}
    (served : world.Serves actor request answer after) :
    after.alive = world.alive ∧ after.full = world.full := by
  have unchanged (same : after = world) :
      after.alive = world.alive ∧ after.full = world.full :=
    ⟨congrArg World.alive same, congrArg World.full same⟩
  cases request with
  | lstat path =>
      cases answer with
      | error code => exact unchanged served
      | ok st => exact unchanged served.2
  | socket =>
      cases answer with
      | error code => exact unchanged served
      | ok fd =>
          obtain ⟨_, rfl⟩ := served
          exact ⟨rfl, rfl⟩
  | connect fd path =>
      cases answer with
      | ok connected => exact unchanged served
      | error code => exact unchanged served.2
  | unlink path =>
      cases answer with
      | error code => exact unchanged served
      | ok unlinked =>
          obtain rfl : after = world.unlink path := served
          exact ⟨rfl, rfl⟩
  | bind fd path =>
      cases answer with
      | error code => exact unchanged served
      | ok bound =>
          obtain ⟨_, _, _, rfl⟩ := served
          exact ⟨rfl, rfl⟩
  | listen fd backlog =>
      cases answer with
      | error code => exact unchanged served
      | ok listening =>
          obtain ⟨_, _, rfl⟩ := served
          exact ⟨rfl, rfl⟩
  | close fd =>
      obtain rfl : after = world.setDescriptor actor fd none := served
      exact ⟨rfl, rfl⟩
  | _ => exact unchanged served

theorem agent_meets
    (run : (agents ι).Run (parties platform setup kills crowds) start history pool world)
    (index : ι) :
    (pool (.agent index)).Meets (contract (placeOf platform setup index))
      (traceOf (Party.agent index) history) fun _ _ => True :=
  run.meets (Party.agent index) meets_runServe fun _ _ _ _ => trivial

/-- In every run in which the agents are kept apart, they stay in order. -/
theorem tidy_of_run
    (begins : start.Begins)
    (run : (agents ι).Run (parties platform setup kills crowds) start history pool world)
    (apart : KeptApart (placeOf platform setup) history) :
    Tidy (placeOf platform setup) (stageIn history) world ∧
      (∀ index, world.alive index = true ↔ ¬Killed history index) ∧
      world.full = fullIn history := by
  induction run with
  | start =>
      refine ⟨⟨begins.used, fun index _ => Settled.mk ?_ ?_⟩, fun index => ?_,
        funext begins.full⟩
      · exact trivial
      · exact trivial
      · simp [begins.alive index, Killed]
  | @step history pool before after party request next answer run current served
      inductionHypothesis =>
      obtain ⟨tidy, alive, full⟩ := inductionHypothesis apart.of_append
      cases party with
      | clients =>
          obtain rfl : after = before.crowd request := served
          refine ⟨?_, fun index => ?_, ?_⟩
          · rw [stageIn_clients]
            exact tidy.crowd request
          · rw [killed_snoc]
            simp [World.crowd, alive index]
          · rw [fullIn_clients, ← full]
            rfl
      | signals =>
          obtain ⟨target⟩ := request
          obtain rfl : after = before.kill target := served
          refine ⟨?_, fun index => ?_, full.trans (fullIn_of_ne history .signals (by simp) _).symm⟩
          · rw [stageIn_signals]
            exact tidy.kill target
          · rw [killed_snoc]
            by_cases same : index = target
            · subst same
              simp [World.kill]
            · simp [World.kill, same, alive index]
      | agent actor =>
          obtain ⟨actorAlive, served⟩ := served
          have meets := agent_meets run actor
          rw [current] at meets
          obtain ⟨sameAlive, sameFull⟩ := keeps_of_serves served
          refine ⟨?_, fun index => ?_, ?_⟩
          · have stages := stageIn_agent history actor ⟨request, answer⟩
            change stageIn (history ++ [⟨.agent actor, request, answer⟩]) = _ at stages
            rw [stages]
            refine tidy.step rfl meets.1 actorAlive served ?_ ?_
            · intro fd path same other different samePlace otherAlive
              rw [same] at apart
              rw [full]
              exact apart.ready history [] actor fd path rfl other different samePlace
                ((alive other).mp otherAlive)
            · intro fd path same other different samePlace otherAlive
              rw [same] at apart
              exact apart.noRemoval history [] actor fd path rfl other different samePlace
                ((alive other).mp otherAlive)
          · rw [killed_snoc, sameAlive, alive index]
            simp
          · rw [sameFull, full, fullIn_of_ne history (.agent actor) (by simp)]
  | drift _ drifted => exact drifted.elim

/-- The `init` of an agent has returned this listener, which has not been closed. -/
structure Running
    (platform : Platform)
    (setup : ι -> Setup)
    (history : List (ListenerEntry ι))
    (index : ι)
    (listener : UnixSocketListener) : Prop where
  returned : ∃ before after : List SocketEvent,
    traceOf (Party.agent index) history = before ++ after ∧
      Ends (init platform (setup index).effectiveUID (setup index).path) before (.ok listener) ∧
      ∀ event ∈ after, ∀ fd, listener.fd = some fd -> event.call ≠ .close fd
  alive : ¬Killed history index

/-- After `init` and before `closeAndUnlink`, there is only the server. -/
theorem stage_of_server
    {path : String}
    {past after : List SocketEvent}
    {fd : Nat}
    {st : Stat}
    {rest : Routine Unit}
    (listening : stageOf past = .listening fd st)
    (steps : Steps ((runSocketServer ⟨some fd, path, some st⟩).ensuring (do
      let closed ← closeAndUnlink ⟨some fd, path, some st⟩
      let _deinitialised ← closeAndUnlink closed
      return ())) after rest)
    (unclosed : ∀ event ∈ after, event.call ≠ .close fd) :
    stageOf (past ++ after) = .listening fd st := by
  cases steps with
  | refl program => rw [List.append_nil, listening]
  | @call request next answer trace rest later =>
      have served : stageOf (past ++ [⟨.runSocketServer fd, answer⟩]) = .listening fd st := by
        rw [stageOf_of_quiet, listening]
        exact trivial
      cases answer <;> cases later with
      | refl program => exact served
      | call later =>
          have closes := unclosed _ (List.mem_cons_of_mem _ List.mem_cons_self)
          exact absurd rfl closes

theorem stage_of_running
    {index : ι}
    {listener : UnixSocketListener}
    (run : (agents ι).Run (parties platform setup kills crowds) start history pool world)
    (running : Running platform setup history index listener) :
    ∃ fd st, listener = ⟨some fd, placeOf platform setup index, some st⟩ ∧
      stageIn history index = .listening fd st := by
  obtain ⟨before, after, split, ended, unclosed⟩ := running.returned
  have listens := meets_init.outcome ended fun _ _ _ _ => trivial
  obtain ⟨fd, st, rfl, listening⟩ := listens listener rfl
  refine ⟨fd, st, rfl, ?_⟩
  have steps : (runServe platform (setup index).effectiveUID (setup index).path).Steps
      (traceOf (Party.agent index) history) (pool (.agent index)) :=
    run.steps (Party.agent index)
  rw [split] at steps
  unfold stageIn
  rw [split]
  have continued := Ends.steps_bind ended steps
  exact stage_of_server listening continued fun event member => unclosed event member fd rfl

/-- In every run of any number of agents that are kept apart, the path of a running
listener names its socket, and no other agent has a running listener on this path. -/
theorem running_listener_keeps_path
    {index : ι}
    {listener : UnixSocketListener}
    (begins : start.Begins)
    (run : (agents ι).Run (parties platform setup kills crowds) start history pool world)
    (apart : KeptApart (placeOf platform setup) history)
    (running : Running platform setup history index listener) :
    (∃ fd st, listener = ⟨some fd, placeOf platform setup index, some st⟩ ∧
      world.entries (placeOf platform setup index) = some (identityOf st) ∧
      world.descriptors index fd = some (.listening (identityOf st))) ∧
    ∀ other, other ≠ index ->
      placeOf platform setup other = placeOf platform setup index ->
        ∀ otherListener, ¬Running platform setup history other otherListener := by
  obtain ⟨tidy, alive, -⟩ := tidy_of_run begins run apart
  obtain ⟨fd, st, rfl, listening⟩ := stage_of_running run running
  have settled := tidy.settled index ((alive index).mpr running.alive)
  have owns := settled.owns
  have wary := settled.wary
  rw [listening] at owns wary
  refine ⟨⟨fd, st, rfl, owns.1, owns.2⟩, ?_⟩
  intro other different same otherListener otherRunning
  obtain ⟨otherFd, otherSt, _, otherListening⟩ := stage_of_running run otherRunning
  refine wary ⟨other, different, (alive other).mpr otherRunning.alive, same, ?_⟩
  rw [otherListening]
  trivial

end Runs

namespace SampleListeners

def platform : Platform where
  strerror _ := "error"
  lastPathComponent path := path
  parentPath _ := "run"
  appending parent name := parent ++ "/" ++ name

/-- Two agents of one user with the same path. -/
def setup : Bool -> Setup :=
  fun _ => { effectiveUID := 501, path := "agent" }

def path : String := "run/agent"

def directory : Stat where
  device := 1
  inode := 2
  mode := 0x41c0
  uid := 501
  gid := 20

def socketFile (inode : Nat) : Stat where
  device := 1
  inode := inode
  mode := 0xc1c0
  uid := 501
  gid := 20

/-- The directory of the socket, with what is left over on the path. -/
def start (leftOver : Option Stat) : World Bool where
  entries := Function.update (fun name =>
    if name = "run" then some (identityOf directory) else none) path (leftOver.map identityOf)
  used identity := identity = identityOf directory ∨ leftOver.map identityOf = some identity
  descriptors _ _ := none
  alive _ := true
  full _ := false

theorem begins (leftOver : Option Stat) : (start leftOver).Begins where
  used name identity present := by
    by_cases same : name = path
    · subst same
      exact .inr (by simpa [start] using present)
    · have found : (if name = "run" then some (identityOf directory) else none) =
          some identity := by
        simpa [start, same] using present
      split at found
      · exact .inl (Option.some.inj found).symm
      · cases found
  alive _ := rfl
  full _ := rfl

/-- An agent finds its directory. -/
def arrives : List SocketEvent :=
  [⟨.lstat "run", .ok directory⟩]

/-- An agent that finds the path free binds its socket. -/
def binds : List SocketEvent :=
  [⟨.socket, .ok 3⟩, ⟨.setCloseOnExec 3, .ok ()⟩, ⟨.lockBind, ()⟩, ⟨.umask 0x3f, 0x12⟩,
    ⟨.bind 3 path, .ok ()⟩, ⟨.umask 0x12, 0x3f⟩, ⟨.unlockBind, ()⟩]

/-- The agent looks at its new file and listens. -/
def listens (inode : Nat) : List SocketEvent :=
  [⟨.lstat path, .ok (socketFile inode)⟩, ⟨.chmod path 0x180, .ok ()⟩, ⟨.listen 3 16, .ok ()⟩]

/-- An agent finds a file that refuses a connection. -/
def probes (inode : Nat) : List SocketEvent :=
  [⟨.lstat path, .ok (socketFile inode)⟩, ⟨.socket, .ok 3⟩, ⟨.setNoSigPipe 3, .ok ()⟩,
    ⟨.setNonBlocking 3, .ok ()⟩, ⟨.setCloseOnExec 3, .ok ()⟩,
    ⟨.connect 3 path, .error connectionRefused⟩]

/-- The agent finds the file again. -/
def confirms (inode : Nat) : List SocketEvent :=
  [⟨.lstat path, .ok (socketFile inode)⟩]

def removes : List SocketEvent :=
  [⟨.unlink path, .ok ()⟩]

/-- A start on a free path. -/
def startsFree (inode : Nat) : List SocketEvent :=
  arrives ++ [⟨.lstat path, .error noEntry⟩] ++ binds ++ listens inode

/-- A start on a path with a socket that is left over. -/
def startsStale (leftOver inode : Nat) : List SocketEvent :=
  arrives ++ probes leftOver ++ confirms leftOver ++ (removes ++ [⟨.close 3, ()⟩] ++ binds ++
    listens inode)

/-- The listener that such a start returns. -/
def listener (inode : Nat) : UnixSocketListener :=
  ⟨some 3, path, some (socketFile inode)⟩

theorem ends_startsFree :
    Ends (init platform 501 "agent") (startsFree 6) (.ok (listener 6)) :=
  .call (.call (.call (.call (.call (.call (.call (.call (.call (.call (.call (.call
    (.refl _))))))))))))

theorem ends_startsStale :
    Ends (init platform 501 "agent") (startsStale 5 6) (.ok (listener 6)) :=
  .call (.call (.call (.call (.call (.call (.call (.call (.call (.call (.call (.call (.call
    (.call (.call (.call (.call (.call (.call (.call (.refl _))))))))))))))))))))

/-- The calls of one of the agents. -/
def madeBy (index : Bool) (trace : List SocketEvent) : List (ListenerEntry Bool) :=
  trace.map (Entry.mk (Party.agent index))

theorem madeBy_thread
    {index : Bool}
    {trace : List SocketEvent} :
    ∀ entry ∈ madeBy index trace, entry.thread = .agent index := by
  simp [madeBy]

/-- What an agent does after its start. -/
def serving : Routine Unit :=
  (runSocketServer (listener 6)).ensuring (do
    let closed ← closeAndUnlink (listener 6)
    let _deinitialised ← closeAndUnlink closed
    return ())

theorem serves_free :
    ∃ world, (agents Bool).ServesAll (.agent true) (start none) (startsFree 6) world ∧
      world.alive false = true ∧ world.entries "run" = some (identityOf directory) ∧
      world.entries path = some (identityOf (socketFile 6)) ∧
      world.descriptors false = fun _ => none :=
  ⟨_, .cons ⟨rfl, rfl, rfl⟩ (.cons ⟨rfl, rfl⟩ (.cons ⟨rfl, rfl, rfl⟩ (.cons ⟨rfl, rfl⟩
    (.cons ⟨rfl, rfl⟩ (.cons ⟨rfl, rfl⟩ (.cons ⟨rfl, rfl, identityOf (socketFile 6),
      by rintro (same | same) <;> exact absurd same (by decide), rfl⟩
      (.cons ⟨rfl, rfl⟩ (.cons ⟨rfl, rfl⟩ (.cons ⟨rfl, rfl, rfl⟩ (.cons ⟨rfl, rfl⟩
        (.cons ⟨rfl, identityOf (socketFile 6), rfl, rfl⟩ (.nil _)))))))))))), rfl, rfl, rfl, rfl⟩

/-- An agent that finds a socket which accepts its connection gives up. -/
def givesUp (inode : Nat) : List SocketEvent :=
  arrives ++ [⟨.lstat path, .ok (socketFile inode)⟩, ⟨.socket, .ok 3⟩,
    ⟨.setNoSigPipe 3, .ok ()⟩, ⟨.setNonBlocking 3, .ok ()⟩, ⟨.setCloseOnExec 3, .ok ()⟩,
    ⟨.connect 3 path, .ok ()⟩, ⟨.close 3, ()⟩]

/-- The agents and clients that fill the backlog of the first one. -/
def crowdedParties :
    Pool (@Party.Call Bool) Party.Answer (fun _ => Failure) (fun _ => Unit) :=
  parties platform setup [] [⟨identityOf (socketFile 6), true⟩]

theorem steps_givesUp :
    ∃ gone, Steps (runServe platform 501 "agent") (givesUp 6) gone :=
  ⟨_, .call (.call (.call (.call (.call (.call (.call (.call (.refl _))))))))⟩

end SampleListeners

open SampleListeners in
/-- A second agent starts while the listener of the first one runs. -/
theorem running_listener_among_two :
    ∃ (history : List (ListenerEntry Bool)) (world : World Bool),
      KeptApart (placeOf platform setup) history ∧
      Running platform setup history true (listener 6) ∧
      traceOf (Party.agent false) history = givesUp 6 ∧
      world.entries path = some (identityOf (socketFile 6)) := by
  obtain ⟨world, served, alive, found, named, unused⟩ := serves_free
  have begun : (agents Bool).Run (parties platform setup [] []) (start none) []
      (parties platform setup [] []) (start none) := .start
  have steps : Steps (parties platform setup [] [] (.agent true)) (startsFree 6) serving :=
    .call (.call (.call (.call (.call (.call (.call (.call (.call (.call (.call (.call
      (.refl _))))))))))))
  have first := begun.alone steps served
  obtain ⟨gone, leaving⟩ := steps_givesUp
  have leavingNow : Steps (Function.update (parties platform setup [] []) (.agent true) serving
      (.agent false)) (givesUp 6) gone := by
    rw [Function.update_of_ne (by simp)]
    exact leaving
  have run := first.alone leavingNow
    (.cons ⟨alive, found, rfl⟩ (.cons ⟨alive, named, rfl⟩ (.cons ⟨alive, congrFun unused 3, rfl⟩
      (.cons ⟨alive, rfl⟩ (.cons ⟨alive, rfl⟩ (.cons ⟨alive, rfl⟩ (.cons ⟨alive, rfl⟩
        (.cons ⟨alive, rfl⟩ (.nil _)))))))))
  change (agents Bool).Run _ _ ([] ++ madeBy true (startsFree 6) ++ madeBy false (givesUp 6)) _ _
    at run
  rw [List.nil_append] at run
  have apart : KeptApart (placeOf platform setup)
      (madeBy true (startsFree 6) ++ madeBy false (givesUp 6)) := by
    refine (KeptApart.alone madeBy_thread).append ?_ ?_
    · simp [madeBy, givesUp, arrives]
    · simp [madeBy, givesUp, arrives]
  have running : Running platform setup (madeBy true (startsFree 6) ++ madeBy false (givesUp 6))
      true (listener 6) := by
    refine ⟨⟨startsFree 6, [], rfl, ends_startsFree, by simp⟩, fun killed => ?_⟩
    rcases List.mem_append.mp killed with here | here
    · cases madeBy_thread _ here
    · cases madeBy_thread _ here
  obtain ⟨⟨fd, st, same, stillNamed, _⟩, _⟩ :=
    running_listener_keeps_path (begins none) run apart running
  obtain rfl : socketFile 6 = st := Option.some.inj (UnixSocketListener.mk.inj same).2.2
  exact ⟨_, _, apart, running, rfl, stillNamed⟩

open SampleListeners in
/-- An agent probes the path while another one has bound its socket and does not listen
yet. The other one then listens and loses its path. -/
theorem unready_listener_loses_path :
    ∃ (history : List (ListenerEntry Bool))
      (pool : Pool (@Party.Call Bool) Party.Answer (fun _ => Failure) (fun _ => Unit))
      (world : World Bool),
      (agents Bool).Run (parties platform setup [] []) (start none) history pool world ∧
      Running platform setup history true (listener 6) ∧ world.entries path = none := by
  have starts : Steps (parties platform setup [] [] (.agent true))
      ((arrives ++ [⟨.lstat path, .error noEntry⟩] ++ binds) ++ listens 6) serving :=
    .call (.call (.call (.call (.call (.call (.call (.call (.call (.call (.call (.call
      (.refl _))))))))))))
  obtain ⟨bound, binding, listening⟩ := steps_append.mp starts
  have removing : ∃ gone, Steps (parties platform setup [] [] (.agent false))
      ((arrives ++ probes 6) ++ (confirms 6 ++ removes)) gone :=
    ⟨_, .call (.call (.call (.call (.call (.call (.call (.call (.call (.refl _)))))))))⟩
  obtain ⟨gone, removing⟩ := removing
  obtain ⟨refused, refusing, removing⟩ := steps_append.mp removing
  have begun : (agents Bool).Run (parties platform setup [] []) (start none) []
      (parties platform setup [] []) (start none) := .start
  have first := begun.alone binding
    (.cons ⟨rfl, rfl, rfl⟩ (.cons ⟨rfl, rfl⟩ (.cons ⟨rfl, rfl, rfl⟩ (.cons ⟨rfl, rfl⟩
      (.cons ⟨rfl, rfl⟩ (.cons ⟨rfl, rfl⟩ (.cons ⟨rfl, rfl, identityOf (socketFile 6),
        by rintro (same | same) <;> exact absurd same (by decide), rfl⟩
        (.cons ⟨rfl, rfl⟩ (.cons ⟨rfl, rfl⟩ (.nil _))))))))))
  have refusingNow : Steps (Function.update (parties platform setup [] []) (.agent true) bound
      (.agent false)) (arrives ++ probes 6) refused := by
    rw [Function.update_of_ne (by simp)]
    exact refusing
  have second := first.alone refusingNow
    (.cons ⟨rfl, rfl, rfl⟩ (.cons ⟨rfl, rfl, rfl⟩ (.cons ⟨rfl, rfl, rfl⟩ (.cons ⟨rfl, rfl⟩
      (.cons ⟨rfl, rfl⟩ (.cons ⟨rfl, rfl⟩ (.cons ⟨rfl, fun _ identity _ _ other fd => by
        cases other <;> simp [World.setDescriptor, World.addSocket, start, Function.update_apply],
        rfl⟩ (.nil _))))))))
  have listeningNow : Steps (Function.update (Function.update (parties platform setup [] [])
      (.agent true) bound) (.agent false) refused (.agent true)) (listens 6) serving := by
    rw [Function.update_of_ne (by simp), Function.update_self]
    exact listening
  have third := second.alone listeningNow
    (.cons ⟨rfl, rfl, rfl⟩ (.cons ⟨rfl, rfl⟩ (.cons ⟨rfl, identityOf (socketFile 6), rfl, rfl⟩
      (.nil _))))
  have removingNow : Steps (Function.update (Function.update (Function.update
      (parties platform setup [] []) (.agent true) bound) (.agent false) refused) (.agent true)
      serving (.agent false)) (confirms 6 ++ removes) gone := by
    rw [Function.update_of_ne (by simp), Function.update_self]
    exact removing
  have fourth := third.alone removingNow
    (.cons ⟨rfl, rfl, rfl⟩ (.cons ⟨rfl, rfl⟩ (.nil _)))
  refine ⟨_, _, _, fourth, ?_, rfl⟩
  refine ⟨⟨startsFree 6, [], ?_, ends_startsFree, by simp⟩, ?_⟩
  · exact rfl
  · simp [Killed]

open SampleListeners in
/-- An agent probes the path while the backlog of the running listener is full. The listener
loses its path. -/
theorem crowded_listener_loses_path :
    ∃ (history : List (ListenerEntry Bool))
      (pool : Pool (@Party.Call Bool) Party.Answer (fun _ => Failure) (fun _ => Unit))
      (world : World Bool),
      (agents Bool).Run crowdedParties (start none) history pool world ∧
      Running platform setup history true (listener 6) ∧ world.entries path = none := by
  have starts : Steps (crowdedParties (.agent true)) (startsFree 6) serving :=
    .call (.call (.call (.call (.call (.call (.call (.call (.call (.call (.call (.call
      (.refl _))))))))))))
  have removing : ∃ gone, Steps (crowdedParties (.agent false))
      (arrives ++ probes 6 ++ confirms 6 ++ removes) gone :=
    ⟨_, .call (.call (.call (.call (.call (.call (.call (.call (.call (.refl _)))))))))⟩
  obtain ⟨gone, removing⟩ := removing
  obtain ⟨world, served, alive, found, named, unused⟩ := serves_free
  have begun : (agents Bool).Run crowdedParties (start none) [] crowdedParties (start none) :=
    .start
  have first := begun.alone starts served
  have crowding : Steps (Function.update crowdedParties (.agent true) serving .clients)
      [⟨⟨identityOf (socketFile 6), true⟩, ()⟩] (fillBacklogs []) := by
    rw [Function.update_of_ne (by simp)]
    exact .call (.refl _)
  have second := first.alone crowding (.cons rfl (.nil _))
  have removingNow : Steps (Function.update (Function.update crowdedParties (.agent true) serving)
      .clients (fillBacklogs []) (.agent false))
      (arrives ++ probes 6 ++ confirms 6 ++ removes) gone := by
    rw [Function.update_of_ne (by simp), Function.update_of_ne (by simp)]
    exact removing
  have isFull (identity : Identity) (present : world.entries path = some identity) :
      (world.crowd ⟨identityOf (socketFile 6), true⟩).full identity = true := by
    obtain rfl := Option.some.inj (named.symm.trans present)
    simp [World.crowd]
  have third := second.alone removingNow
    (.cons ⟨alive, found, rfl⟩ (.cons ⟨alive, named, rfl⟩ (.cons ⟨alive, congrFun unused 3, rfl⟩
      (.cons ⟨alive, rfl⟩ (.cons ⟨alive, rfl⟩ (.cons ⟨alive, rfl⟩
        (.cons ⟨alive, fun _ identity present room =>
          Bool.noConfusion ((isFull identity present).symm.trans room), rfl⟩
          (.cons ⟨alive, named, rfl⟩ (.cons ⟨alive, rfl⟩ (.nil _))))))))))
  refine ⟨_, _, _, third, ⟨⟨startsFree 6, [], rfl, ends_startsFree, by simp⟩, ?_⟩, ?_⟩
  · simp [Killed]
  · simp [World.unlink, path]

open SampleListeners in
/-- Two agents find the same socket left over. One removes it and starts to listen on a
socket of its own, which the other one removes. -/
theorem renewed_listener_loses_path :
    ∃ (history : List (ListenerEntry Bool))
      (pool : Pool (@Party.Call Bool) Party.Answer (fun _ => Failure) (fun _ => Unit))
      (world : World Bool),
      (agents Bool).Run (parties platform setup [] []) (start (some (socketFile 5))) history pool
        world ∧
      Running platform setup history true (listener 6) ∧ world.entries path = none := by
  have starts : Steps (parties platform setup [] [] (.agent true)) (startsStale 5 6) serving :=
    .call (.call (.call (.call (.call (.call (.call (.call (.call (.call (.call (.call (.call
      (.call (.call (.call (.call (.call (.call (.call (.refl _))))))))))))))))))))
  obtain ⟨condemned, finding, renewing⟩ := steps_append.mp starts
  have removing : ∃ gone, Steps (parties platform setup [] [] (.agent false))
      (arrives ++ probes 5 ++ confirms 5 ++ removes) gone :=
    ⟨_, .call (.call (.call (.call (.call (.call (.call (.call (.call (.refl _)))))))))⟩
  obtain ⟨gone, removing⟩ := removing
  obtain ⟨waiting, agreeing, removing⟩ := steps_append.mp removing
  have begun : (agents Bool).Run (parties platform setup [] []) (start (some (socketFile 5))) []
      (parties platform setup [] []) (start (some (socketFile 5))) := .start
  have first := begun.alone finding
    (.cons ⟨rfl, rfl, rfl⟩ (.cons ⟨rfl, rfl, rfl⟩ (.cons ⟨rfl, rfl, rfl⟩ (.cons ⟨rfl, rfl⟩
      (.cons ⟨rfl, rfl⟩ (.cons ⟨rfl, rfl⟩ (.cons ⟨rfl, fun _ identity _ _ other fd => by
        cases other <;> simp [World.setDescriptor, start, Function.update_apply], rfl⟩
        (.cons ⟨rfl, rfl, rfl⟩ (.nil _)))))))))
  have agreeingNow : Steps (Function.update (parties platform setup [] []) (.agent true) condemned
      (.agent false)) (arrives ++ probes 5 ++ confirms 5) waiting := by
    rw [Function.update_of_ne (by simp)]
    exact agreeing
  have second := first.alone agreeingNow
    (.cons ⟨rfl, rfl, rfl⟩ (.cons ⟨rfl, rfl, rfl⟩ (.cons ⟨rfl, rfl, rfl⟩ (.cons ⟨rfl, rfl⟩
      (.cons ⟨rfl, rfl⟩ (.cons ⟨rfl, rfl⟩ (.cons ⟨rfl, fun _ identity _ _ other fd => by
        cases other <;> simp [World.setDescriptor, start, Function.update_apply], rfl⟩
        (.cons ⟨rfl, rfl, rfl⟩ (.nil _)))))))))
  have renewingNow : Steps (Function.update (Function.update (parties platform setup [] [])
      (.agent true) condemned) (.agent false) waiting (.agent true))
      (removes ++ [⟨.close 3, ()⟩] ++ binds ++ listens 6) serving := by
    rw [Function.update_of_ne (by simp), Function.update_self]
    exact renewing
  have third := second.alone renewingNow
    (.cons ⟨rfl, rfl⟩ (.cons ⟨rfl, rfl⟩ (.cons ⟨rfl, rfl, rfl⟩ (.cons ⟨rfl, rfl⟩
      (.cons ⟨rfl, rfl⟩ (.cons ⟨rfl, rfl⟩ (.cons ⟨rfl, rfl, identityOf (socketFile 6),
        by rintro (same | same) <;> exact absurd same (by decide), rfl⟩
        (.cons ⟨rfl, rfl⟩ (.cons ⟨rfl, rfl⟩ (.cons ⟨rfl, rfl, rfl⟩ (.cons ⟨rfl, rfl⟩
          (.cons ⟨rfl, identityOf (socketFile 6), rfl, rfl⟩ (.nil _)))))))))))))
  have removingNow : Steps (Function.update (Function.update (Function.update
      (parties platform setup [] []) (.agent true) condemned) (.agent false) waiting) (.agent true)
      serving (.agent false)) removes gone := by
    rw [Function.update_of_ne (by simp), Function.update_self]
    exact removing
  have fourth := third.alone removingNow (.cons ⟨rfl, rfl⟩ (.nil _))
  refine ⟨_, _, _, fourth, ?_, rfl⟩
  refine ⟨⟨startsStale 5 6, [], ?_, ends_startsStale, by simp⟩, ?_⟩
  · exact rfl
  · simp [Killed]

end Listener
end Agent
end MacosAuth
