import MacosAuth.Agent.Workers
import MacosAuth.Window.Sliding

/-!
# The bound of the rate limiter

The limiter keeps for every key the times of the calls that it allowed, prunes them when
the key is used again, and counts what is left. No window of time ever holds more allowed
calls for one host, service and user than the limiter's maximum.
-/

namespace MacosAuth
namespace Agent

open Window

variable {Key : Type}

/-- A call of `allow`, with the reading of the clock and the answer. -/
structure Allowance where
  now : UInt64
  request : AuthRequestBody
  allowed : Bool

/-- The calls of a limiter in order, and the events that it keeps after them. The clock
does not run backwards. -/
inductive RateLimiter.Calls (limiter : RateLimiter) (keys : KeyPlatform Key) :
    List Allowance -> LimiterEvents -> Prop
  | start : RateLimiter.Calls limiter keys [] fun _ => []
  | allow {past : List Allowance} {eventsByKey : LimiterEvents} (now : UInt64)
      (request : AuthRequestBody) :
      RateLimiter.Calls limiter keys past eventsByKey ->
      (∀ call ∈ past, call.now.toNat ≤ now.toNat) ->
      RateLimiter.Calls limiter keys
        (past ++ [⟨now, request, (limiter.allow keys eventsByKey now request).1⟩])
        (limiter.allow keys eventsByKey now request).2

/-- The times of the calls that were allowed under a key. -/
def allowedTimes (keys : KeyPlatform Key) (key : String) (past : List Allowance) : List Nat :=
  (past.filter fun call => call.allowed && keys.canonicalForm (limiterKey call.request) == key).map
    fun call => call.now.toNat

@[simp] theorem allowedTimes_concat
    (keys : KeyPlatform Key)
    (key : String)
    (past : List Allowance)
    (call : Allowance) :
    allowedTimes keys key (past ++ [call]) = allowedTimes keys key past ++
      if call.allowed ∧ keys.canonicalForm (limiterKey call.request) = key then
        [call.now.toNat]
      else [] := by
  simp only [allowedTimes, List.filter_append, List.map_append]
  congr 1
  by_cases counted : call.allowed ∧ keys.canonicalForm (limiterKey call.request) = key
  · simp [counted]
  · rw [if_neg counted]
    simpa using counted

theorem allowedTimes_le
    {keys : KeyPlatform Key}
    {key : String}
    {past : List Allowance}
    {now : Nat}
    (ordered : ∀ call ∈ past, call.now.toNat ≤ now) :
    ∀ time ∈ allowedTimes keys key past, time ≤ now := by
  intro time member
  obtain ⟨call, found, rfl⟩ := List.mem_map.mp member
  exact ordered call (List.mem_of_mem_filter found)

/-- The events of a key are the admitted times down to a cutoff that has been reached. -/
def Keeps
    (limiter : RateLimiter)
    (past : List Allowance)
    (events : List UInt64)
    (times : List Nat) : Prop :=
  ∃ cutoff, events.map UInt64.toNat =
      times.filter (fun time => cutoff ≤ time + limiter.windowMs.toNat) ∧
    ∀ now, (∀ call ∈ past, call.now.toNat ≤ now) -> cutoff ≤ now

/-- The cutoff of `allow` keeps exactly the window that ends now. -/
theorem cutoff_le_iff (windowMs now event : UInt64) :
    (if windowMs < now then now - windowMs else 0) ≤ event ↔
      now.toNat ≤ event.toNat + windowMs.toNat := by
  rw [UInt64.le_iff_toNat_le]
  split
  · rename_i after
    rw [UInt64.toNat_sub_of_le _ _ (UInt64.le_iff_toNat_le.mpr
      (UInt64.lt_iff_toNat_lt.mp after).le)]
    omega
  · rename_i early
    rw [UInt64.lt_iff_toNat_lt] at early
    simp only [UInt64.toNat_zero, Nat.zero_le, true_iff]
    omega

/-- Pruning leaves the admitted times in the window that ends now. -/
theorem Keeps.prune
    {limiter : RateLimiter}
    {past : List Allowance}
    {events : List UInt64}
    {times : List Nat}
    (keeps : Keeps limiter past events times)
    {now : UInt64}
    (ordered : ∀ call ∈ past, call.now.toNat ≤ now.toNat) :
    (events.filter fun event =>
      (if limiter.windowMs < now then now - limiter.windowMs else 0) ≤ event).map UInt64.toNat =
      times.filter fun time => now.toNat ≤ time + limiter.windowMs.toNat := by
  obtain ⟨cutoff, kept, reached⟩ := keeps
  have passed := reached now.toNat ordered
  calc
    _ = (events.map UInt64.toNat).filter
          fun time => now.toNat ≤ time + limiter.windowMs.toNat := by
      simp only [List.filter_map, Function.comp_def, cutoff_le_iff]
    _ = times.filter fun time => now.toNat ≤ time + limiter.windowMs.toNat := by
      rw [kept, List.filter_filter]
      apply List.filter_congr
      intro time _
      rw [← Bool.decide_and, decide_eq_decide]
      omega

theorem Keeps.extend
    {limiter : RateLimiter}
    {past : List Allowance}
    {events : List UInt64}
    {times : List Nat}
    (keeps : Keeps limiter past events times)
    (call : Allowance) :
    Keeps limiter (past ++ [call]) events times := by
  obtain ⟨cutoff, kept, reached⟩ := keeps
  refine ⟨cutoff, kept, fun now ordered => reached now fun earlier member => ?_⟩
  exact ordered earlier (List.mem_append_left _ member)

/-- Every key is admitted within the bound, and its events are kept. -/
structure Windowed
    (limiter : RateLimiter)
    (keys : KeyPlatform Key)
    (past : List Allowance)
    (eventsByKey : LimiterEvents) : Prop where
  bounded : ∀ key, Admitted limiter.windowMs.toNat limiter.maxRequests.toNat
    (allowedTimes keys key past)
  keeps : ∀ key, Keeps limiter past (eventsByKey key) (allowedTimes keys key past)

section Step

variable {limiter : RateLimiter} {keys : KeyPlatform Key} {past : List Allowance}
variable {eventsByKey : LimiterEvents} {now : UInt64} {request : AuthRequestBody}

/-- What a call does: it prunes the events of its key, and records the time if there is
room. -/
theorem allow_cases
    (positive : 0 < limiter.maxRequests)
    (keys : KeyPlatform Key)
    (eventsByKey : LimiterEvents)
    (now : UInt64)
    (request : AuthRequestBody)
    {own : String}
    (ownKey : keys.canonicalForm (limiterKey request) = own) :
    ∃ events, events = (eventsByKey own).filter
        (fun event => (if limiter.windowMs < now then now - limiter.windowMs else 0) ≤ event) ∧
      ((limiter.maxRequests.toNat ≤ events.length ∧
          limiter.allow keys eventsByKey now request =
            (false, Function.update eventsByKey own events)) ∨
        (events.length < limiter.maxRequests.toNat ∧
          limiter.allow keys eventsByKey now request =
            (true, Function.update eventsByKey own (events ++ [now])))) := by
  refine ⟨_, rfl, ?_⟩
  unfold RateLimiter.allow
  rw [if_neg (Int.not_le.mpr positive), ownKey]
  dsimp only
  generalize (eventsByKey own).filter _ = events
  split
  · rename_i full
    exact .inl ⟨by omega, rfl⟩
  · rename_i room
    exact .inr ⟨by omega, rfl⟩

/-- Every call keeps the invariant. -/
theorem Windowed.allow
    (positive : 0 < limiter.maxRequests)
    (windowed : Windowed limiter keys past eventsByKey)
    (ordered : ∀ call ∈ past, call.now.toNat ≤ now.toNat) :
    Windowed limiter keys
      (past ++ [⟨now, request, (limiter.allow keys eventsByKey now request).1⟩])
      (limiter.allow keys eventsByKey now request).2 := by
  obtain ⟨own, ownKey⟩ : ∃ own, keys.canonicalForm (limiterKey request) = own := ⟨_, rfl⟩
  obtain ⟨events, pruned, answer⟩ := allow_cases positive keys eventsByKey now request ownKey
  have left : events.map UInt64.toNat = (allowedTimes keys own past).filter
      fun time => now.toNat ≤ time + limiter.windowMs.toNat :=
    pruned ▸ (windowed.keeps own).prune ordered
  have counted : events.length =
      countInside limiter.windowMs.toNat now.toNat (allowedTimes keys own past) := by
    rw [← List.length_map UInt64.toNat, left, ← List.countP_eq_length_filter]
    apply List.countP_congr
    intro time member
    have before := allowedTimes_le ordered time member
    simp [Inside, before]
  have reached (allowed : Bool) (later : Nat)
      (bounded : ∀ call ∈ past ++ [⟨now, request, allowed⟩], call.now.toNat ≤ later) :
      now.toNat ≤ later :=
    bounded ⟨now, request, allowed⟩ (by simp)
  rcases answer with ⟨full, equal⟩ | ⟨room, equal⟩
  · rw [equal]
    constructor
    · intro key
      simpa using windowed.bounded key
    · intro key
      by_cases same : own = key
      · subst same
        refine ⟨now.toNat, ?_, reached false⟩
        simpa using left
      · simpa [Function.update_of_ne (Ne.symm same)] using (windowed.keeps key).extend _
  · rw [equal]
    constructor
    · intro key
      by_cases same : own = key
      · subst same
        simpa [ownKey] using
          (windowed.bounded own).concat (allowedTimes_le ordered) (counted ▸ room)
      · simpa [ownKey, same] using windowed.bounded key
    · intro key
      by_cases same : own = key
      · subst same
        refine ⟨now.toNat, ?_, reached true⟩
        simp [ownKey, left, List.filter_append]
      · simpa [ownKey, same, Function.update_of_ne (Ne.symm same)] using
          (windowed.keeps key).extend _

end Step

/-- The invariant holds in every run. -/
theorem windowed_of_calls
    {limiter : RateLimiter}
    {keys : KeyPlatform Key}
    {past : List Allowance}
    {eventsByKey : LimiterEvents}
    (positive : 0 < limiter.maxRequests)
    (calls : limiter.Calls keys past eventsByKey) :
    Windowed limiter keys past eventsByKey := by
  induction calls with
  | start => exact ⟨fun _ => .nil, fun _ => ⟨0, rfl, fun _ _ => Nat.zero_le _⟩⟩
  | allow _ _ _ ordered inductionHypothesis => exact inductionHypothesis.allow positive ordered

/-- The calls for one host, service and user that were allowed in a closed window. -/
def allowedInside
    (limiter : RateLimiter)
    (past : List Allowance)
    (linuxHostId pamService pamUser : String)
    (last : Nat) : Nat :=
  past.countP fun call => call.allowed ∧ call.request.linuxHostId = linuxHostId ∧
    call.request.pamService = pamService ∧ call.request.pamUser = pamUser ∧
    last ≤ call.now.toNat + limiter.windowMs.toNat ∧ call.now.toNat ≤ last

/-- Calls for the same host, service and user share a key. -/
theorem allowedInside_le_countInside
    (limiter : RateLimiter)
    (keys : KeyPlatform Key)
    (past : List Allowance)
    (linuxHostId pamService pamUser : String)
    (last : Nat) :
    allowedInside limiter past linuxHostId pamService pamUser last ≤
      countInside limiter.windowMs.toNat last (allowedTimes keys
        (keys.canonicalForm (linuxHostId ++ "|" ++ pamService ++ "|" ++ pamUser)) past) := by
  rw [allowedInside, countInside, allowedTimes, List.countP_map, List.countP_filter]
  apply List.countP_mono_left
  intro call _ counted
  rw [decide_eq_true_eq] at counted
  obtain ⟨allowed, rfl, rfl, rfl, inside⟩ := counted
  simp only [Function.comp_apply, Bool.and_eq_true, decide_eq_true_eq, beq_iff_eq]
  exact ⟨inside, allowed, rfl⟩

/-- No window of the limiter's width holds more allowed calls for one host, service and
user than its maximum, wherever the window ends. -/
theorem allow_rate_bounded
    (limiter : RateLimiter)
    (keys : KeyPlatform Key)
    (positive : 0 < limiter.maxRequests)
    {past : List Allowance}
    {eventsByKey : LimiterEvents}
    (calls : limiter.Calls keys past eventsByKey)
    (linuxHostId pamService pamUser : String)
    (last : Nat) :
    (allowedInside limiter past linuxHostId pamService pamUser last : Int) ≤
      limiter.maxRequests := by
  have windowed := windowed_of_calls positive calls
  have shared := allowedInside_le_countInside limiter keys past linuxHostId pamService pamUser last
  have bounded := shared.trans ((windowed.bounded _).countInside_le last)
  omega

/-- Of two requests within a minute, a limiter that admits one a minute allows the first. -/
theorem allow_rate_bounded_once :
    ∃ past eventsByKey,
      (RateLimiter.start 60 1).Calls webPlatform.keys past eventsByKey ∧
        past.map (fun call => call.allowed) = [true, false] ∧
        (allowedInside (.start 60 1) past "web" "sudo" "ada" 61000 : Int) ≤ 1 := by
  have first : (RateLimiter.start 60 1).Calls webPlatform.keys _ _ :=
    .allow 1000 webRequest.body .start (by simp)
  have second : (RateLimiter.start 60 1).Calls webPlatform.keys _ _ :=
    .allow 2000 webRequest.body first (by simp)
  exact ⟨_, _, second, rfl, allow_rate_bounded _ _ (by decide) second "web" "sudo" "ada" 61000⟩

/-! ## Independence -/

/-- The strings of a host, service and user, by the form under which strings are compared. -/
def tripleOf (keys : KeyPlatform Key) (request : AuthRequestBody) : String × String × String :=
  (keys.canonicalForm request.linuxHostId, keys.canonicalForm request.pamService,
    keys.canonicalForm request.pamUser)

/-- The key of a request, by the form under which keys are compared. -/
def comparedKey (keys : KeyPlatform Key) (request : AuthRequestBody) : String :=
  keys.canonicalForm (limiterKey request)

/-- The answers to a sequence of calls, each with its reading of the clock. -/
def RateLimiter.allowAll (limiter : RateLimiter) (keys : KeyPlatform Key) :
    LimiterEvents -> List (UInt64 × AuthRequestBody) -> List (AuthRequestBody × Bool)
  | _, [] => []
  | eventsByKey, (now, request) :: rest =>
      (request, (limiter.allow keys eventsByKey now request).1) ::
        limiter.allowAll keys (limiter.allow keys eventsByKey now request).2 rest

/-- In every sequence of such requests, the answers to the calls of one triple are the same
as if only the calls of that triple had been made. -/
def RateLimiter.Independent (limiter : RateLimiter) (keys : KeyPlatform Key)
    (made : AuthRequestBody -> Prop) : Prop :=
  ∀ calls : List (UInt64 × AuthRequestBody), (∀ call ∈ calls, made call.2) ->
    ∀ triple, (limiter.allowAll keys (fun _ => []) calls).filter
        (fun answer => tripleOf keys answer.1 = triple) =
      limiter.allowAll keys (fun _ => []) (calls.filter fun call => tripleOf keys call.2 = triple)

section Independence

variable {limiter : RateLimiter} {keys : KeyPlatform Key} {now : UInt64}
variable {request : AuthRequestBody} {left right : LimiterEvents}

/-- A call depends on the events of its own key only, and leaves those of other keys. -/
theorem allow_congr
    (positive : 0 < limiter.maxRequests)
    (now : UInt64)
    (same : left (comparedKey keys request) = right (comparedKey keys request)) :
    (limiter.allow keys left now request).1 = (limiter.allow keys right now request).1 ∧
      (limiter.allow keys left now request).2 (comparedKey keys request) =
        (limiter.allow keys right now request).2 (comparedKey keys request) := by
  obtain ⟨events, pruned, answer⟩ := allow_cases positive keys left now request rfl
  obtain ⟨events', pruned', answer'⟩ := allow_cases positive keys right now request rfl
  have equal : events = events' := by
    rw [pruned, pruned']
    exact congrArg _ same
  subst equal
  rcases answer with ⟨full, allowed⟩ | ⟨room, allowed⟩
  · rcases answer' with ⟨_, allowed'⟩ | ⟨room', _⟩
    · rw [allowed, allowed']
      exact ⟨rfl, by simp [comparedKey]⟩
    · omega
  · rcases answer' with ⟨full', _⟩ | ⟨_, allowed'⟩
    · omega
    · rw [allowed, allowed']
      exact ⟨rfl, by simp [comparedKey]⟩

theorem allow_other
    (positive : 0 < limiter.maxRequests)
    {key : String}
    (different : key ≠ comparedKey keys request) :
    (limiter.allow keys left now request).2 key = left key := by
  obtain ⟨events, _, ⟨_, allowed⟩ | ⟨_, allowed⟩⟩ := allow_cases positive keys left now request rfl
  · rw [allowed]
    exact Function.update_of_ne different _ _
  · rw [allowed]
    exact Function.update_of_ne different _ _

/-- Calls that share no key with the kept ones can be left out. -/
theorem allowAll_filter
    (positive : 0 < limiter.maxRequests)
    {made : AuthRequestBody -> Prop}
    (keep : AuthRequestBody -> Bool)
    (apart : ∀ kept other, made kept -> made other -> keep kept = true -> keep other = false ->
      comparedKey keys kept ≠ comparedKey keys other)
    (agree : ∀ kept, made kept -> keep kept = true ->
      left (comparedKey keys kept) = right (comparedKey keys kept))
    (calls : List (UInt64 × AuthRequestBody))
    (permitted : ∀ call ∈ calls, made call.2) :
    (limiter.allowAll keys left calls).filter (fun answer => keep answer.1) =
      limiter.allowAll keys right (calls.filter fun call => keep call.2) := by
  induction calls generalizing left right with
  | nil => rfl
  | cons call rest inductionHypothesis =>
      obtain ⟨now, request⟩ := call
      have own : made request := permitted (now, request) (by simp)
      have others : ∀ call ∈ rest, made call.2 :=
        fun call member => permitted call (List.mem_cons_of_mem _ member)
      cases kept : keep request with
      | true =>
          obtain ⟨answer, events⟩ := allow_congr positive now (agree request own kept)
          simp only [RateLimiter.allowAll, List.filter_cons, kept, if_true, answer]
          congr 1
          refine inductionHypothesis (fun other madeOther keptOther => ?_) others
          by_cases same : comparedKey keys other = comparedKey keys request
          · rw [same, events]
          · rw [allow_other positive same, allow_other positive same, agree other madeOther keptOther]
      | false =>
          simp only [RateLimiter.allowAll, List.filter_cons, kept, Bool.false_eq_true, if_false]
          refine inductionHypothesis (fun other madeOther keptOther => ?_) others
          rw [allow_other positive (apart other request madeOther own keptOther kept)]
          exact agree other madeOther keptOther

/-- Calls at time zero use up the allowance of their key. -/
theorem allowAll_replicate
    (positive : 0 < limiter.maxRequests)
    (before : LimiterEvents)
    (count used : Nat)
    (fits : used + count ≤ limiter.maxRequests.toNat)
    (events : before (comparedKey keys request) = List.replicate used 0)
    (rest : List (UInt64 × AuthRequestBody)) :
    ∃ after : LimiterEvents,
      limiter.allowAll keys before (List.replicate count (0, request) ++ rest) =
        List.replicate count (request, true) ++ limiter.allowAll keys after rest ∧
      after (comparedKey keys request) = List.replicate (used + count) 0 := by
  induction count generalizing before used with
  | zero => exact ⟨before, rfl, events⟩
  | succ count inductionHypothesis =>
      obtain ⟨kept, pruned, answer⟩ := allow_cases positive keys before 0 request rfl
      have unchanged : kept = List.replicate used 0 := by
        change before (comparedKey keys request) = _ at events
        rw [pruned]
        change (before (comparedKey keys request)).filter _ = _
        rw [events]
        simp
      subst unchanged
      rw [List.length_replicate] at answer
      rcases answer with ⟨full, _⟩ | ⟨_, allowed⟩
      · omega
      · have recorded : (limiter.allow keys before 0 request).2 (comparedKey keys request) =
            List.replicate (used + 1) 0 := by
          rw [allowed, List.replicate_succ']
          exact Function.update_self ..
        obtain ⟨after, answers, final⟩ := inductionHypothesis _ (used + 1) (by omega) recorded
        refine ⟨after, ?_, ?_⟩
        · rw [List.replicate_succ, List.cons_append, RateLimiter.allowAll, answers, allowed,
            List.replicate_succ, List.cons_append]
        · rw [final]
          congr 1
          omega

end Independence

/-- The calls of one triple are independent of those of others exactly if no two triples
among the requests share a key. -/
theorem allow_independent_iff
    (limiter : RateLimiter)
    (keys : KeyPlatform Key)
    (positive : 0 < limiter.maxRequests)
    (made : AuthRequestBody -> Prop) :
    limiter.Independent keys made ↔
      ∀ first second, made first -> made second ->
        comparedKey keys first = comparedKey keys second ->
          tripleOf keys first = tripleOf keys second := by
  constructor
  · intro independent first second madeFirst madeSecond shared
    by_contra different
    -- the first triple uses up the allowance of the shared key before the second asks
    let calls : List (UInt64 × AuthRequestBody) :=
      List.replicate limiter.maxRequests.toNat (0, first) ++ [(0, second)]
    have permitted : ∀ call ∈ calls, made call.2 := by
      intro call member
      rcases List.mem_append.mp member with early | last
      · rw [List.eq_of_mem_replicate early]
        exact madeFirst
      · rw [List.mem_singleton.mp last]
        exact madeSecond
    have kept : (calls.filter fun call => tripleOf keys call.2 = tripleOf keys second) =
        [(0, second)] := by
      simp [calls, different]
    have empty : (fun _ => [] : LimiterEvents) (comparedKey keys first) = List.replicate 0 0 := rfl
    obtain ⟨after, answers, events⟩ := allowAll_replicate positive (fun _ => [])
      limiter.maxRequests.toNat 0 (by omega) empty [(0, second)]
    have equal := independent calls permitted (tripleOf keys second)
    rw [kept, answers] at equal
    simp only [List.filter_append, List.filter_replicate, different, RateLimiter.allowAll] at equal
    have refused : (limiter.allow keys after 0 second).1 = false := by
      obtain ⟨left, pruned, answer⟩ := allow_cases positive keys after 0 second shared.symm
      rw [events, Nat.zero_add] at pruned
      have full : left.length = limiter.maxRequests.toNat := by
        rw [pruned]
        simp
      rcases answer with ⟨_, answer⟩ | ⟨room, _⟩
      · rw [answer]
      · omega
    have allowed : (limiter.allow keys (fun _ => []) 0 second).1 = true := by
      obtain ⟨left, pruned, ⟨full, _⟩ | ⟨_, answer⟩⟩ :=
        allow_cases positive keys (fun _ => []) 0 second rfl
      · rw [pruned] at full
        simp only [List.filter_nil, List.length_nil] at full
        omega
      · rw [answer]
    simp [refused, allowed] at equal
  · intro separated calls permitted triple
    apply allowAll_filter positive (fun request => tripleOf keys request = triple) ?_ ?_ calls
      permitted
    · intro kept other madeKept madeOther keptTriple otherTriple shared
      have same := separated kept other madeKept madeOther shared
      simp only [decide_eq_true_eq, decide_eq_false_iff_not] at keptTriple otherTriple
      exact otherTriple (same.symm.trans keptTriple)
    · exact fun _ _ _ => rfl

/-- Two requests of the host `web` for services and users whose strings differ, but whose
keys are the same. -/
def barredRequest (pamService pamUser : String) : AuthRequestBody :=
  { webRequest.body with pamService := pamService, pamUser := pamUser }

/-- A limiter that separates its requests. -/
theorem allow_independent_single :
    (RateLimiter.start 60 1).Independent webPlatform.keys fun request =>
      request = webRequest.body :=
  (allow_independent_iff _ _ (by decide) _).mpr fun first second madeFirst madeSecond _ => by
    rw [madeFirst, madeSecond]

/-- A request for another service and user uses up the allowance. -/
theorem allow_not_independent :
    tripleOf webPlatform.keys (barredRequest "sudo|ada" "root") ≠
        tripleOf webPlatform.keys (barredRequest "sudo" "ada|root") ∧
      (RateLimiter.start 60 1).allowAll webPlatform.keys (fun _ => [])
          [(0, barredRequest "sudo|ada" "root"), (0, barredRequest "sudo" "ada|root")] =
        [(barredRequest "sudo|ada" "root", true), (barredRequest "sudo" "ada|root", false)] ∧
      (RateLimiter.start 60 1).allowAll webPlatform.keys (fun _ => [])
          [(0, barredRequest "sudo" "ada|root")] =
        [(barredRequest "sudo" "ada|root", true)] := by
  refine ⟨by decide, by decide, by decide⟩

end Agent
end MacosAuth
