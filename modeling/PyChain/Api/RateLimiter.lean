import Mathlib.Data.Rat.Floor
import PyChain.Foundation.Clock
import PyChain.Foundation.Dict
import PyChain.Foundation.Machine
import PyChain.Foundation.SlidingWindow
import PyChain.Foundation.Text

/-!
# The rate limiter

The middleware that admits the HTTP requests of each IP under three quotas over a
sliding window.  It keeps the times of the admitted requests for each quota and
forgets them lazily, in two places.  Clock readings are exact and an argument of
each call, and so is the upper case mapping of method names.
-/

namespace PyChain

open Foundation

namespace Api

inductive Tier where
  | general
  | mutation
  | admin
deriving DecidableEq, Repr

/-- What the middleware reads of the scope of a request. -/
structure Scope where
  type : Str
  client : Option (Str × Nat)
  method : Option Str
  path : Option Str
deriving DecidableEq

structure RateLimits where
  generalLimit : Nat
  mutationLimit : Nat
  adminLimit : Nat
  window : Rat
  windowNonneg : 0 ≤ window

def RateLimits.standard : RateLimits :=
  { generalLimit := 120
    mutationLimit := 30
    adminLimit := 5
    window := 60
    windowNonneg := by decide }

def RateLimits.limit (limits : RateLimits) : Tier -> Nat
  | .general => limits.generalLimit
  | .mutation => limits.mutationLimit
  | .admin => limits.adminLimit

abbrev RequestHistory : Type := Dict Str (List Rat)

structure RateLimiter where
  generalHistory : RequestHistory
  mutationHistory : RequestHistory
  adminHistory : RequestHistory
  lastCleanup : Rat

/-- The answer to a request that is not forwarded. -/
structure TooManyRequests where
  statusCode : Nat
  retryAfter : Int
  code : Str
  message : Str
deriving DecidableEq, Repr

inductive Verdict where
  | forwarded
  | blocked (response : TooManyRequests)
deriving DecidableEq, Repr

structure Arrival where
  now : Rat
  scope : Scope
deriving DecidableEq

def Scope.isHttp (scope : Scope) : Bool :=
  decide (scope.type = str "http")

def Scope.clientIp (scope : Scope) : Str :=
  match scope.client with
  | some (host, _) => if host = [] then str "127.0.0.1" else host
  | none => str "127.0.0.1"

def Scope.isMutation (upper : Str -> Str) (scope : Scope) : Bool :=
  decide (upper (scope.method.getD (str "GET")) ∈
    [str "POST", str "PUT", str "DELETE", str "PATCH"])

def Scope.isAdmin (scope : Scope) : Bool :=
  (str "/api/v1/admin").isPrefixOf (scope.path.getD [])

/-- The quotas a request counts against. -/
def Scope.uses (upper : Str -> Str) (scope : Scope) : Tier -> Bool
  | .general => true
  | .mutation => scope.isMutation upper
  | .admin => scope.isAdmin

namespace RateLimiter

def new (start : Rat) : RateLimiter :=
  { generalHistory := Dict.empty
    mutationHistory := Dict.empty
    adminHistory := Dict.empty
    lastCleanup := start }

def history (limiter : RateLimiter) : Tier -> RequestHistory
  | .general => limiter.generalHistory
  | .mutation => limiter.mutationHistory
  | .admin => limiter.adminHistory

/-- The recorded times of an IP, none where there is no entry. -/
def queue (limiter : RateLimiter) (tier : Tier) (ip : Str) : List Rat :=
  ((limiter.history tier).get? ip).getD []

/-- The loop over the three histories. -/
def mapHistories (f : RequestHistory -> RequestHistory) (limiter : RateLimiter) : RateLimiter :=
  { limiter with
    generalHistory := f limiter.generalHistory
    mutationHistory := f limiter.mutationHistory
    adminHistory := f limiter.adminHistory }

def cleanHistory (cutoff : Rat) (history : RequestHistory) : RequestHistory :=
  (history.mapValues (dropStale cutoff)).filter (fun item => decide (item.2 ≠ []))

def cleanupOldEntries (limits : RateLimits) (now : Rat) (limiter : RateLimiter) : RateLimiter :=
  if now - limiter.lastCleanup < 30 then limiter
  else
    { limiter.mapHistories (cleanHistory (now - limits.window)) with lastCleanup := now }

/-- Reading the queue of an IP creates it. -/
def cleanQueues (cutoff : Rat) (ip : Str) (limiter : RateLimiter) : RateLimiter :=
  limiter.mapHistories (fun history =>
    history.set ip (dropStale cutoff ((history.get? ip).getD [])))

/-- The first quota of a request that is used up. -/
def exhausted (limits : RateLimits) (upper : Str -> Str) (scope : Scope)
    (queues : Tier -> List Rat) : Option Tier :=
  [Tier.general, Tier.mutation, Tier.admin].find? (fun tier =>
    scope.uses upper tier && decide (limits.limit tier ≤ (queues tier).length))

/-- The time of the oldest request that counts, or the present without one. -/
def oldest (now : Rat) : List Rat -> Rat
  | [] => now
  | entry :: _ => min now entry

def tooManyRequests (limits : RateLimits) (now : Rat) (queue : List Rat) : TooManyRequests :=
  { statusCode := 429
    retryAfter := max 1 ⌈oldest now queue + limits.window - now⌉
    code := str "RATE_LIMITED"
    message := str "Too many requests; rate limit exceeded" }

/-- Record a forwarded request in one history. -/
def append (history : RequestHistory) (ip : Str) (now : Rat) : RequestHistory :=
  history.set ip ((history.get? ip).getD [] ++ [now])

def record (upper : Str -> Str) (now : Rat) (scope : Scope) (limiter : RateLimiter) :
    RateLimiter :=
  { limiter with
    generalHistory := append limiter.generalHistory scope.clientIp now
    mutationHistory :=
      if scope.isMutation upper then append limiter.mutationHistory scope.clientIp now
      else limiter.mutationHistory
    adminHistory :=
      if scope.isAdmin then append limiter.adminHistory scope.clientIp now
      else limiter.adminHistory }

def call (limits : RateLimits) (upper : Str -> Str) (arrival : Arrival)
    (limiter : RateLimiter) : Verdict × RateLimiter :=
  if arrival.scope.isHttp = false then (.forwarded, limiter)
  else
    let ip := arrival.scope.clientIp
    let limiter := limiter.cleanQueues (arrival.now - limits.window) ip
    match exhausted limits upper arrival.scope (fun tier => limiter.queue tier ip) with
    | some tier =>
        (.blocked (tooManyRequests limits arrival.now (limiter.queue tier ip)), limiter)
    | none =>
        (.forwarded,
          (limiter.record upper arrival.now arrival.scope).cleanupOldEntries limits arrival.now)

def machine (limits : RateLimits) (upper : Str -> Str) :
    Machine RateLimiter Arrival Verdict :=
  { step := call limits upper }

/-- The arrival that a call forwards to the application under the quotas. -/
def admits (limits : RateLimits) (upper : Str -> Str) (arrival : Arrival)
    (limiter : RateLimiter) : List Arrival :=
  if arrival.scope.isHttp = true ∧ (call limits upper arrival limiter).1 = .forwarded then
    [arrival]
  else []

/-- The limiter after some arrivals, from its construction. -/
def after (limits : RateLimits) (upper : Str -> Str) (start : Rat) (arrivals : List Arrival) :
    RateLimiter :=
  (machine limits upper).run arrivals (new start)

/-- The HTTP requests that were forwarded, in order. -/
def forwarded (limits : RateLimits) (upper : Str -> Str) (start : Rat)
    (arrivals : List Arrival) : List Arrival :=
  (machine limits upper).trace (admits limits upper) arrivals (new start)

def single : RateLimits :=
  { RateLimits.standard with generalLimit := 1 }

/-- A request with the defaults of a scope. -/
def getAt (now : Rat) : Arrival :=
  { now := now
    scope := { type := str "http", client := none, method := none, path := none } }

example :
    (machine single id).results [getAt 0, getAt 60, getAt 61] (new 0) =
      [.forwarded, .blocked (tooManyRequests single 60 [0]), .forwarded] := by
  decide +kernel

/-!
## Queues under each operation
-/

theorem history_mapHistories (f : RequestHistory -> RequestHistory) (limiter : RateLimiter)
    (tier : Tier) : (limiter.mapHistories f).history tier = f (limiter.history tier) := by
  cases tier with
  | general => rfl
  | mutation => rfl
  | admin => rfl

theorem history_record (upper : Str -> Str) (now : Rat) (scope : Scope)
    (limiter : RateLimiter) (tier : Tier) :
    (limiter.record upper now scope).history tier =
      if scope.uses upper tier = true then append (limiter.history tier) scope.clientIp now
      else limiter.history tier := by
  cases tier with
  | general => rfl
  | mutation => rfl
  | admin => rfl

theorem queue_cleanQueues (cutoff : Rat) (ip : Str) (limiter : RateLimiter) (tier : Tier)
    (other : Str) :
    (limiter.cleanQueues cutoff ip).queue tier other =
      if other = ip then dropStale cutoff (limiter.queue tier ip)
      else limiter.queue tier other := by
  unfold queue cleanQueues
  rw [history_mapHistories, Dict.get?_set]
  by_cases h : other = ip
  · rw [if_pos h, if_pos h]
    rfl
  · rw [if_neg h, if_neg h]

theorem queue_record (upper : Str -> Str) (now : Rat) (scope : Scope) (limiter : RateLimiter)
    (tier : Tier) (other : Str) :
    (limiter.record upper now scope).queue tier other =
      if scope.clientIp = other ∧ scope.uses upper tier = true then
        limiter.queue tier other ++ [now]
      else limiter.queue tier other := by
  unfold queue
  rw [history_record]
  by_cases huses : scope.uses upper tier = true
  · rw [if_pos huses, append, Dict.get?_set]
    by_cases h : other = scope.clientIp
    · rw [if_pos h, if_pos ⟨h.symm, huses⟩, h]
      rfl
    · rw [if_neg h, if_neg (fun hboth => h hboth.left.symm)]
  · rw [if_neg huses, if_neg (fun hboth => huses hboth.right)]

theorem getD_cleanHistory (cutoff : Rat) (history : RequestHistory) (ip : Str) :
    ((cleanHistory cutoff history).get? ip).getD [] =
      dropStale cutoff ((history.get? ip).getD []) := by
  have hmap := Dict.get?_mapValues history (dropStale cutoff) ip
  cases hget : history.get? ip with
  | none =>
      rw [hget] at hmap
      have hnone : (cleanHistory cutoff history).get? ip = none := by
        cases hclean : (cleanHistory cutoff history).get? ip with
        | none => rfl
        | some queue =>
            have hkept := ((Dict.get?_filter _ _ ip queue).mp hclean).left
            rw [hmap] at hkept
            cases hkept
      rw [hnone]
      rfl
  | some queue =>
      rw [hget] at hmap
      by_cases hempty : dropStale cutoff queue = []
      · have hnone : (cleanHistory cutoff history).get? ip = none := by
          cases hclean : (cleanHistory cutoff history).get? ip with
          | none => rfl
          | some kept =>
              rcases (Dict.get?_filter _ _ ip kept).mp hclean with ⟨hvalue, hkeep⟩
              rw [hmap] at hvalue
              rw [← Option.some.inj hvalue] at hkeep
              exact absurd hempty (of_decide_eq_true hkeep)
        rw [hnone, Option.getD_some, hempty]
        rfl
      · have hsome : (cleanHistory cutoff history).get? ip = some (dropStale cutoff queue) :=
          (Dict.get?_filter _ _ ip _).mpr ⟨hmap, decide_eq_true hempty⟩
        rw [hsome]
        rfl

theorem queue_cleanupOldEntries (limits : RateLimits) (now : Rat) (limiter : RateLimiter)
    (tier : Tier) (ip : Str) :
    (limiter.cleanupOldEntries limits now).queue tier ip = limiter.queue tier ip ∨
      (limiter.cleanupOldEntries limits now).queue tier ip =
        dropStale (now - limits.window) (limiter.queue tier ip) := by
  unfold cleanupOldEntries
  by_cases hearly : now - limiter.lastCleanup < 30
  · rw [if_pos hearly]
    exact Or.inl rfl
  · rw [if_neg hearly]
    apply Or.inr
    unfold queue
    rw [← getD_cleanHistory]
    exact congrArg (fun history => (Dict.get? history ip).getD [])
      (history_mapHistories (cleanHistory (now - limits.window)) limiter tier)

/-!
## What the queues know
-/

/-- The times at which an IP used a quota, in a log of forwarded requests. -/
def times (upper : Str -> Str) (tier : Tier) (ip : Str) (log : List Arrival) : List Rat :=
  (log.filter (fun arrival =>
    decide (arrival.scope.clientIp = ip) && arrival.scope.uses upper tier)).map Arrival.now

/-- The uses of a quota that count at an arrival, in a log of forwarded requests. -/
def counted (limits : RateLimits) (upper : Str -> Str) (log : List Arrival) (arrival : Arrival)
    (tier : Tier) : List Rat :=
  recent (arrival.now - limits.window) (times upper tier arrival.scope.clientIp log)

/-- The verdict on an arrival, from the log of what was forwarded before. -/
def judge (limits : RateLimits) (upper : Str -> Str) (log : List Arrival) (arrival : Arrival) :
    Verdict :=
  match exhausted limits upper arrival.scope (counted limits upper log arrival) with
  | some tier =>
      .blocked (tooManyRequests limits arrival.now (counted limits upper log arrival tier))
  | none => .forwarded

/-- The queues of a limiter agree with the log of what it forwarded. -/
structure Tracks (limits : RateLimits) (upper : Str -> Str) (clock : Rat)
    (log : List Arrival) (limiter : RateLimiter) : Prop where
  past : forall arrival, arrival ∈ log -> arrival.now ≤ clock
  keeps : forall tier ip,
    Keeps (clock - limits.window) (times upper tier ip log) (limiter.queue tier ip)
  paced : forall tier ip,
    Paced (limits.limit tier) limits.window (times upper tier ip log)

variable {limits : RateLimits} {upper : Str -> Str} {clock : Rat} {log : List Arrival}
  {limiter : RateLimiter} {arrival : Arrival}

theorem mem_times {tier : Tier} {ip : Str} {entry : Rat}
    (h : entry ∈ times upper tier ip log) :
    exists arrival, arrival ∈ log ∧ arrival.now = entry := by
  rcases List.mem_map.mp h with ⟨arrival, harrival, hentry⟩
  exact ⟨arrival, (List.mem_filter.mp harrival).left, hentry⟩

theorem times_append (tier : Tier) (ip : Str) (front back : List Arrival) :
    times upper tier ip (front ++ back) =
      times upper tier ip front ++ times upper tier ip back := by
  rw [times, List.filter_append, List.map_append]
  rfl

theorem times_single (tier : Tier) (ip : Str) (arrival : Arrival) :
    times upper tier ip [arrival] =
      if arrival.scope.clientIp = ip ∧ arrival.scope.uses upper tier = true then [arrival.now]
      else [] := by
  unfold times
  by_cases h : arrival.scope.clientIp = ip ∧ arrival.scope.uses upper tier = true
  · rw [if_pos h, List.filter_cons_of_pos (by simp [h.left, h.right])]
    rfl
  · rw [if_neg h, List.filter_cons_of_neg]
    · rfl
    · rw [Bool.and_eq_true, decide_eq_true_iff]
      exact h

theorem Tracks.new (start : Rat) : Tracks limits upper start [] (RateLimiter.new start) := by
  constructor
  case past =>
    intro arrival harrival
    cases harrival
  case keeps =>
    intro tier ip
    cases tier with
    | general => exact Keeps.nil _
    | mutation => exact Keeps.nil _
    | admin => exact Keeps.nil _
  case paced =>
    intro tier ip
    exact Paced.nil

theorem Tracks.later {now : Rat} (h : Tracks limits upper clock log limiter)
    (hnow : clock ≤ now) : Tracks limits upper now log limiter :=
  { past := fun arrival harrival => le_trans (h.past arrival harrival) hnow
    keeps := fun tier ip => (h.keeps tier ip).mono (sub_le_sub_right hnow _)
    paced := h.paced }

theorem Tracks.cleanQueues (h : Tracks limits upper clock log limiter) (ip : Str) :
    Tracks limits upper clock log (limiter.cleanQueues (clock - limits.window) ip) := by
  refine { past := h.past, keeps := ?_, paced := h.paced }
  intro tier other
  rw [queue_cleanQueues]
  by_cases hother : other = ip
  · rw [if_pos hother, hother]
    exact (h.keeps tier ip).dropStale (h.paced tier ip).sorted (le_refl _)
  · rw [if_neg hother]
    exact h.keeps tier other

theorem Tracks.cleanupOldEntries (h : Tracks limits upper clock log limiter) :
    Tracks limits upper clock log (limiter.cleanupOldEntries limits clock) := by
  refine { past := h.past, keeps := ?_, paced := h.paced }
  intro tier ip
  rcases queue_cleanupOldEntries limits clock limiter tier ip with hsame | hdropped
  · rw [hsame]
    exact h.keeps tier ip
  · rw [hdropped]
    exact (h.keeps tier ip).dropStale (h.paced tier ip).sorted (le_refl _)

theorem Tracks.queue_eq (h : Tracks limits upper clock log limiter)
    (hclock : clock ≤ arrival.now) :
    (fun tier => (limiter.cleanQueues (arrival.now - limits.window)
      arrival.scope.clientIp).queue tier arrival.scope.clientIp) =
      counted limits upper log arrival := by
  funext tier
  have hlater := h.later hclock
  rw [queue_cleanQueues, if_pos rfl]
  exact (hlater.keeps tier _).dropStale_eq (hlater.paced tier _).sorted (le_refl _)

theorem Tracks.record (h : Tracks limits upper arrival.now log limiter)
    (hroom : forall tier, arrival.scope.uses upper tier = true ->
      (counted limits upper log arrival tier).length < limits.limit tier) :
    Tracks limits upper arrival.now (log ++ [arrival])
      (limiter.record upper arrival.now arrival.scope) := by
  constructor
  case past =>
    intro earlier hearlier
    rcases List.mem_append.mp hearlier with hold | hnew
    · exact h.past earlier hold
    · rw [List.mem_singleton.mp hnew]
  case keeps =>
    intro tier ip
    rw [times_append, times_single, queue_record]
    by_cases hused : arrival.scope.clientIp = ip ∧ arrival.scope.uses upper tier = true
    · rw [if_pos hused, if_pos hused]
      exact (h.keeps tier ip).append (sub_le_self _ limits.windowNonneg)
    · rw [if_neg hused, if_neg hused, List.append_nil]
      exact h.keeps tier ip
  case paced =>
    intro tier ip
    rw [times_append, times_single]
    by_cases hused : arrival.scope.clientIp = ip ∧ arrival.scope.uses upper tier = true
    · rw [if_pos hused]
      apply Paced.snoc (h.paced tier ip)
      · intro earlier hearlier
        rcases mem_times hearlier with ⟨old, hold, hentry⟩
        rw [← hentry]
        exact h.past old hold
      · rw [← hused.left]
        exact hroom tier hused.right
    · rw [if_neg hused, List.append_nil]
      exact h.paced tier ip

/-!
## One request
-/

theorem call_of_not_http (h : arrival.scope.isHttp = false) :
    call limits upper arrival limiter = (.forwarded, limiter) :=
  if_pos h

theorem exhausted_eq_none_iff {scope : Scope} {queues : Tier -> List Rat} :
    exhausted limits upper scope queues = none <->
      forall tier, scope.uses upper tier = true -> (queues tier).length < limits.limit tier := by
  unfold exhausted
  rw [List.find?_eq_none]
  constructor
  · intro h tier huses
    have hmem : tier ∈ [Tier.general, Tier.mutation, Tier.admin] := by
      cases tier with
      | general => decide
      | mutation => decide
      | admin => decide
    have hroom := h tier hmem
    rw [huses, Bool.true_and, decide_eq_true_iff] at hroom
    exact not_le.mp hroom
  · intro h tier _ hspent
    rw [Bool.and_eq_true, decide_eq_true_iff] at hspent
    exact absurd hspent.right (not_le.mpr (h tier hspent.left))

theorem Tracks.call_blocked {tier : Tier} (h : Tracks limits upper clock log limiter)
    (hclock : clock ≤ arrival.now) (hhttp : arrival.scope.isHttp = true)
    (hspent : exhausted limits upper arrival.scope (counted limits upper log arrival) =
      some tier) :
    RateLimiter.call limits upper arrival limiter =
      (.blocked (tooManyRequests limits arrival.now (counted limits upper log arrival tier)),
        limiter.cleanQueues (arrival.now - limits.window) arrival.scope.clientIp) := by
  have hnot : ¬ arrival.scope.isHttp = false := by
    rw [hhttp]
    exact Bool.noConfusion
  rw [← h.queue_eq hclock] at hspent ⊢
  unfold RateLimiter.call
  rw [if_neg hnot]
  simp only [hspent]

theorem Tracks.call_forwarded (h : Tracks limits upper clock log limiter)
    (hclock : clock ≤ arrival.now) (hhttp : arrival.scope.isHttp = true)
    (hroom : exhausted limits upper arrival.scope (counted limits upper log arrival) = none) :
    RateLimiter.call limits upper arrival limiter =
      (.forwarded,
        ((limiter.cleanQueues (arrival.now - limits.window) arrival.scope.clientIp).record
          upper arrival.now arrival.scope).cleanupOldEntries limits arrival.now) := by
  have hnot : ¬ arrival.scope.isHttp = false := by
    rw [hhttp]
    exact Bool.noConfusion
  rw [← h.queue_eq hclock] at hroom
  unfold RateLimiter.call
  rw [if_neg hnot]
  simp only [hroom]

theorem Tracks.verdict_eq (h : Tracks limits upper clock log limiter)
    (hclock : clock ≤ arrival.now) (hhttp : arrival.scope.isHttp = true) :
    (RateLimiter.call limits upper arrival limiter).1 = judge limits upper log arrival := by
  unfold judge
  cases hspent : exhausted limits upper arrival.scope (counted limits upper log arrival) with
  | none => rw [h.call_forwarded hclock hhttp hspent]
  | some tier => rw [h.call_blocked hclock hhttp hspent]

theorem judge_forwarded_iff : judge limits upper log arrival = .forwarded <->
    forall tier, arrival.scope.uses upper tier = true ->
      (counted limits upper log arrival tier).length < limits.limit tier := by
  rw [← exhausted_eq_none_iff]
  unfold judge
  cases exhausted limits upper arrival.scope (counted limits upper log arrival) with
  | none => exact ⟨fun _ => rfl, fun _ => rfl⟩
  | some tier =>
      constructor
      · intro h
        cases h
      · intro h
        cases h

theorem admits_of_forwarded (hhttp : arrival.scope.isHttp = true)
    (h : (call limits upper arrival limiter).1 = .forwarded) :
    admits limits upper arrival limiter = [arrival] :=
  if_pos ⟨hhttp, h⟩

theorem admits_of_not_forwarded (h : (call limits upper arrival limiter).1 ≠ .forwarded) :
    admits limits upper arrival limiter = [] :=
  if_neg (fun hboth => h hboth.right)

theorem admits_of_not_http (h : arrival.scope.isHttp = false) :
    admits limits upper arrival limiter = [] := by
  apply if_neg
  intro hboth
  rw [h] at hboth
  exact Bool.noConfusion hboth.left

theorem Tracks.call (h : Tracks limits upper clock log limiter) (hclock : clock ≤ arrival.now) :
    Tracks limits upper arrival.now (log ++ admits limits upper arrival limiter)
      (call limits upper arrival limiter).2 := by
  have hlater := h.later hclock
  cases hhttp : arrival.scope.isHttp with
  | false =>
      rw [admits_of_not_http hhttp, call_of_not_http hhttp, List.append_nil]
      exact hlater
  | true =>
      have hclean := hlater.cleanQueues arrival.scope.clientIp
      cases hspent : exhausted limits upper arrival.scope (counted limits upper log arrival) with
      | none =>
          have hcall := h.call_forwarded hclock hhttp hspent
          rw [admits_of_forwarded hhttp (by rw [hcall]), hcall]
          exact (hclean.record (exhausted_eq_none_iff.mp hspent)).cleanupOldEntries
      | some tier =>
          have hcall := h.call_blocked hclock hhttp hspent
          have hblocked : (RateLimiter.call limits upper arrival limiter).1 ≠ .forwarded := by
            rw [hcall]
            exact Verdict.noConfusion
          rw [admits_of_not_forwarded hblocked, hcall, List.append_nil]
          exact hclean

/-!
## Runs
-/

theorem Tracks.run (arrivals : List Arrival) :
    forall {clock : Rat} {log : List Arrival} {limiter : RateLimiter},
      Tracks limits upper clock log limiter -> Chronological Arrival.now clock arrivals ->
      forall now, clock ≤ now -> (forall arrival, arrival ∈ arrivals -> arrival.now ≤ now) ->
        Tracks limits upper now
          (log ++ (machine limits upper).trace (admits limits upper) arrivals limiter)
          ((machine limits upper).run arrivals limiter) := by
  induction arrivals with
  | nil =>
      intro clock log limiter h _ now hnow _
      rw [Machine.trace, List.append_nil]
      exact h.later hnow
  | cons first rest ih =>
      intro clock log limiter h hchrono now _ hall
      rcases chronological_cons.mp hchrono with ⟨hclock, hrest⟩
      rw [Machine.trace, ← List.append_assoc]
      exact ih (h.call hclock) hrest now (hall first List.mem_cons_self)
        (fun later hlater => hall later (List.mem_cons_of_mem first hlater))

theorem tracks_after {start now : Rat} {arrivals : List Arrival}
    (h : Chronological Arrival.now start arrivals) (hstart : start ≤ now)
    (hall : forall arrival, arrival ∈ arrivals -> arrival.now ≤ now) :
    Tracks limits upper now (forwarded limits upper start arrivals)
      (after limits upper start arrivals) :=
  (Tracks.new start).run arrivals h now hstart hall

theorem tracks_next {start : Rat} {arrivals : List Arrival}
    (h : Chronological Arrival.now start (arrivals ++ [arrival])) :
    Tracks limits upper arrival.now (forwarded limits upper start arrivals)
      (after limits upper start arrivals) :=
  tracks_after (h.sublist (List.sublist_append_left arrivals [arrival])) h.le_last.left
    h.le_last.right

theorem trace_sublist (arrivals : List Arrival) (limiter : RateLimiter) :
    List.Sublist ((machine limits upper).trace (admits limits upper) arrivals limiter)
      arrivals := by
  induction arrivals generalizing limiter with
  | nil => exact List.Sublist.refl []
  | cons first rest ih =>
      rw [Machine.trace]
      unfold admits
      split
      · exact (ih _).cons_cons first
      · exact (ih _).cons first

/-!
## Requests of one IP
-/

def Arrival.isFrom (ip : Str) (arrival : Arrival) : Bool :=
  decide (arrival.scope.clientIp = ip)

theorem times_isFrom (tier : Tier) (ip : Str) (log : List Arrival) :
    times upper tier ip (log.filter (Arrival.isFrom ip)) = times upper tier ip log := by
  unfold times
  rw [List.filter_filter]
  congr 1
  apply List.filter_congr
  intro arrival _harrival
  unfold Arrival.isFrom
  by_cases h : arrival.scope.clientIp = ip
  · simp [h]
  · simp [h]

theorem judge_congr {other : List Arrival}
    (h : log.filter (Arrival.isFrom arrival.scope.clientIp) =
      other.filter (Arrival.isFrom arrival.scope.clientIp)) :
    judge limits upper log arrival = judge limits upper other arrival := by
  have hcounted : counted limits upper log arrival = counted limits upper other arrival := by
    funext tier
    unfold counted
    rw [← times_isFrom, h, times_isFrom]
  unfold judge
  rw [hcounted]

/-- What a limiter forwards of one IP, a limiter that has seen the same of that IP
forwards again. -/
theorem trace_own (ip : Str) (arrivals : List Arrival) :
    forall {clock : Rat} {log other : List Arrival} {limiter second : RateLimiter},
      Tracks limits upper clock log limiter -> Tracks limits upper clock other second ->
      log.filter (Arrival.isFrom ip) = other.filter (Arrival.isFrom ip) ->
      Chronological Arrival.now clock arrivals ->
        (machine limits upper).trace (admits limits upper)
          (((machine limits upper).trace (admits limits upper) arrivals limiter).filter
            (Arrival.isFrom ip)) second =
          ((machine limits upper).trace (admits limits upper) arrivals limiter).filter
            (Arrival.isFrom ip) := by
  induction arrivals with
  | nil =>
      intro clock log other limiter second _ _ _ _
      rfl
  | cons first rest ih =>
      intro clock log other limiter second h hsecond hsame hchrono
      rcases chronological_cons.mp hchrono with ⟨hclock, hrest⟩
      have hcall := h.call hclock
      rw [Machine.trace, List.filter_append]
      by_cases hadmitted : first.scope.isHttp = true ∧
          (call limits upper first limiter).1 = .forwarded
      · rw [admits_of_forwarded hadmitted.left hadmitted.right] at hcall ⊢
        by_cases hown : Arrival.isFrom ip first = true
        · have hip : first.scope.clientIp = ip := of_decide_eq_true hown
          have hagain : (call limits upper first second).1 = .forwarded := by
            rw [← hadmitted.right, h.verdict_eq hclock hadmitted.left,
              hsecond.verdict_eq hclock hadmitted.left]
            apply judge_congr
            rw [hip]
            exact hsame.symm
          have hnext := hsecond.call hclock
          rw [admits_of_forwarded hadmitted.left hagain] at hnext
          rw [List.filter_cons_of_pos hown, List.filter_nil, List.singleton_append,
            Machine.trace, admits_of_forwarded hadmitted.left hagain, List.singleton_append]
          congr 1
          refine ih hcall hnext ?_ hrest
          rw [List.filter_append, List.filter_append, hsame]
        · rw [List.filter_cons_of_neg hown, List.filter_nil, List.nil_append]
          refine ih hcall (hsecond.later hclock) ?_ hrest
          rw [List.filter_append, List.filter_cons_of_neg hown, List.filter_nil, List.append_nil]
          exact hsame
      · have hnone : admits limits upper first limiter = [] := if_neg hadmitted
        rw [hnone, List.append_nil] at hcall
        rw [hnone, List.filter_nil, List.nil_append]
        exact ih hcall (hsecond.later hclock) hsame hrest

/-- In every closed window the forwarded requests of an IP are within each quota they
use; and a verdict is the same as after the forwarded requests of its IP alone, all of
which are forwarded again. -/
theorem forwarded_within_limits (limits : RateLimits) (upper : Str -> Str) (start : Rat)
    (arrivals : List Arrival) (h : Chronological Arrival.now start arrivals) :
    (forall tier ip opening,
      ((forwarded limits upper start arrivals).filter (fun arrival =>
        Arrival.isFrom ip arrival && arrival.scope.uses upper tier &&
          (decide (opening ≤ arrival.now) &&
            decide (arrival.now ≤ opening + limits.window)))).length ≤ limits.limit tier) ∧
    (forall ip,
      forwarded limits upper start
          ((forwarded limits upper start arrivals).filter (Arrival.isFrom ip)) =
        (forwarded limits upper start arrivals).filter (Arrival.isFrom ip) ∧
      forall arrival, arrival.scope.clientIp = ip ->
        Chronological Arrival.now start (arrivals ++ [arrival]) ->
          (call limits upper arrival (after limits upper start arrivals)).1 =
            (call limits upper arrival (after limits upper start
              ((forwarded limits upper start arrivals).filter (Arrival.isFrom ip)))).1) := by
  have hnew : Tracks limits upper start [] (RateLimiter.new start) := Tracks.new start
  constructor
  · intro tier ip opening
    rcases exists_later Arrival.now start arrivals with ⟨now, hstart, hall⟩
    have hpaced : Paced (limits.limit tier) limits.window
        (times upper tier ip (forwarded limits upper start arrivals)) :=
      (tracks_after h hstart hall).paced tier ip
    have hwindow := hpaced.window_length_le opening
    unfold times at hwindow
    rw [List.filter_map, List.length_map, List.filter_filter] at hwindow
    refine le_trans (le_of_eq ?_) hwindow
    congr 1
    apply List.filter_congr
    intro arrival _harrival
    exact Bool.and_comm _ _
  · intro ip
    have hown := trace_own ip arrivals hnew hnew rfl h
    refine ⟨hown, ?_⟩
    intro arrival hip hnext
    have hsub : List.Sublist ((forwarded limits upper start arrivals).filter
        (Arrival.isFrom ip) ++ [arrival]) (arrivals ++ [arrival]) :=
      List.Sublist.append (List.filter_sublist.trans (trace_sublist arrivals _))
        (List.Sublist.refl [arrival])
    cases hhttp : arrival.scope.isHttp with
    | false => rw [call_of_not_http hhttp, call_of_not_http hhttp]
    | true =>
        rw [(tracks_next hnext).verdict_eq (le_refl _) hhttp,
          (tracks_next (hnext.sublist hsub)).verdict_eq (le_refl _) hhttp]
        apply judge_congr
        rw [hip, forwarded, forwarded, hown]
        exact (List.filter_filter.trans (by simp)).symm

theorem forwarded_within_limits_single :
    (forwarded single id 0 [getAt 0, getAt 60, getAt 61]).length = 2 ∧
    ((forwarded single id 0 [getAt 0, getAt 60, getAt 61]).filter (fun arrival =>
      Arrival.isFrom (str "127.0.0.1") arrival && arrival.scope.uses id .general &&
        (decide (1 ≤ arrival.now) && decide (arrival.now ≤ 1 + 60)))).length ≤ 1 :=
  ⟨by decide +kernel,
    (forwarded_within_limits single id 0 [getAt 0, getAt 60, getAt 61]
      (by decide +kernel)).left .general (str "127.0.0.1") 1⟩

/-!
## The advertised delay
-/

/-- The time until the oldest request that counts leaves the window. -/
def wait (limits : RateLimits) (now : Rat) (queue : List Rat) : Rat :=
  oldest now queue + limits.window - now

/-- No used up quota of a request waits as long as the first of them in whole seconds,
and at least one. -/
def DelayCovers (limits : RateLimits) (upper : Str -> Str) (arrival : Arrival)
    (queues : Tier -> List Rat) : Prop :=
  forall first, exhausted limits upper arrival.scope queues = some first ->
    forall tier, arrival.scope.uses upper tier = true ->
      limits.limit tier ≤ (queues tier).length ->
        wait limits arrival.now (queues tier) <
          (max 1 ⌈wait limits arrival.now (queues first)⌉ : Int)

theorem Tracks.room_later_iff {now : Rat} {tier : Tier}
    (h : Tracks limits upper arrival.now log limiter) (hnow : arrival.now ≤ now)
    (hpos : 0 < limits.limit tier) :
    (counted limits upper log { arrival with now := now } tier).length < limits.limit tier <->
      (limits.limit tier ≤ (counted limits upper log arrival tier).length ->
        wait limits arrival.now (counted limits upper log arrival tier) < now - arrival.now) := by
  have hpaced := h.paced tier arrival.scope.clientIp
  have hpast : forall entry, entry ∈ times upper tier arrival.scope.clientIp log ->
      entry ≤ arrival.now := by
    intro entry hentry
    rcases mem_times hentry with ⟨old, hold, heq⟩
    rw [← heq]
    exact h.past old hold
  have hlater : counted limits upper log { arrival with now := now } tier =
      recent (now - limits.window) (counted limits upper log arrival tier) :=
    (recent_recent (sub_le_sub_right hnow limits.window) _).symm
  have hmost : (counted limits upper log arrival tier).length ≤ limits.limit tier :=
    hpaced.recent_length_le hpast
  have hsorted : (counted limits upper log arrival tier).Pairwise (· ≤ ·) :=
    recent_sorted hpaced.sorted _
  have hbefore : forall entry, entry ∈ counted limits upper log arrival tier ->
      entry ≤ arrival.now := fun entry hentry => hpast entry (mem_recent.mp hentry).left
  rw [hlater]
  cases hqueue : counted limits upper log arrival tier with
  | nil =>
      rw [recent_nil, List.length_nil]
      exact ⟨fun _ hfull => absurd hfull (not_le.mpr hpos), fun _ => hpos⟩
  | cons first rest =>
      rw [hqueue] at hmost hsorted hbefore
      have hwait : wait limits arrival.now (first :: rest) =
          first + limits.window - arrival.now := by
        rw [wait, oldest, min_eq_right (hbefore first List.mem_cons_self)]
      have hleaves : wait limits arrival.now (first :: rest) < now - arrival.now <->
          first < now - limits.window := by
        rw [hwait, sub_lt_sub_iff_right, lt_sub_iff_add_lt]
      rw [hleaves, ← recent_cons_length_lt_iff hsorted]
      by_cases hfull : limits.limit tier ≤ (first :: rest).length
      · rw [le_antisymm hfull hmost]
        exact ⟨fun hroom _ => hroom, fun hroom => hroom (le_refl _)⟩
      · have hless := List.length_filter_le
          (fun entry => decide (now - limits.window ≤ entry)) (first :: rest)
        exact ⟨fun _ habsurd => absurd habsurd hfull,
          fun _ => lt_of_le_of_lt hless (not_le.mp hfull)⟩

theorem trace_others {ip : Str} {others : List Arrival}
    (h : forall other, other ∈ others -> other.scope.isHttp = true -> other.scope.clientIp ≠ ip)
    (limiter : RateLimiter) :
    ((machine limits upper).trace (admits limits upper) others limiter).filter
      (Arrival.isFrom ip) = [] := by
  induction others generalizing limiter with
  | nil => rfl
  | cons first rest ih =>
      rw [Machine.trace, List.filter_append,
        ih (fun other hother => h other (List.mem_cons_of_mem first hother)), List.append_nil,
        List.filter_eq_nil_iff]
      intro arrival harrival
      unfold admits at harrival
      split at harrival
      next hboth =>
        rw [List.mem_singleton.mp harrival]
        intro hfrom
        exact h first List.mem_cons_self hboth.left (of_decide_eq_true hfrom)
      next => cases harrival

/-- A blocked request is forwarded when it is repeated after the advertised delay,
whatever other IPs do meanwhile, exactly when that delay covers every quota of the
request that is used up. -/
theorem retryAfter_honest_iff (limits : RateLimits) (upper : Str -> Str) (start : Rat)
    (arrivals : List Arrival) (arrival : Arrival) (response : TooManyRequests)
    (hpos : forall tier, 0 < limits.limit tier)
    (h : Chronological Arrival.now start (arrivals ++ [arrival]))
    (hblocked : (call limits upper arrival (after limits upper start arrivals)).1 =
      .blocked response) :
    (forall others now,
      (forall other, other ∈ others -> other.scope.isHttp = true ->
        other.scope.clientIp ≠ arrival.scope.clientIp) ->
      Chronological Arrival.now start
        (arrivals ++ arrival :: others ++ [{ arrival with now := now }]) ->
      arrival.now + response.retryAfter ≤ now ->
        (call limits upper { arrival with now := now }
          (after limits upper start (arrivals ++ arrival :: others))).1 = .forwarded) <->
    DelayCovers limits upper arrival (fun tier =>
      ((after limits upper start arrivals).cleanQueues (arrival.now - limits.window)
        arrival.scope.clientIp).queue tier arrival.scope.clientIp) := by
  have htracks : Tracks limits upper arrival.now (forwarded limits upper start arrivals)
      (after limits upper start arrivals) := tracks_next h
  have hhttp : arrival.scope.isHttp = true := by
    cases hscope : arrival.scope.isHttp with
    | true => rfl
    | false =>
        rw [call_of_not_http hscope] at hblocked
        cases hblocked
  rw [htracks.queue_eq (le_refl _)]
  have hjudge := htracks.verdict_eq (le_refl _) hhttp
  rw [hblocked] at hjudge
  have hnone : admits limits upper arrival (after limits upper start arrivals) = [] := by
    apply admits_of_not_forwarded
    rw [hblocked]
    exact Verdict.noConfusion
  have hrepeat : forall others now,
      (forall other, other ∈ others -> other.scope.isHttp = true ->
        other.scope.clientIp ≠ arrival.scope.clientIp) ->
      Chronological Arrival.now start
        (arrivals ++ arrival :: others ++ [{ arrival with now := now }]) ->
        ((call limits upper { arrival with now := now }
          (after limits upper start (arrivals ++ arrival :: others))).1 = .forwarded <->
        forall tier, arrival.scope.uses upper tier = true ->
          limits.limit tier ≤
              (counted limits upper (forwarded limits upper start arrivals) arrival tier).length ->
            wait limits arrival.now
                (counted limits upper (forwarded limits upper start arrivals) arrival tier) <
              now - arrival.now) := by
    intro others now hothers hchrono
    have hnow : arrival.now ≤ now :=
      hchrono.le_last.right arrival (List.mem_append_right arrivals List.mem_cons_self)
    have hsame : judge limits upper (forwarded limits upper start (arrivals ++ arrival :: others))
        { arrival with now := now } =
        judge limits upper (forwarded limits upper start arrivals)
          { arrival with now := now } := by
      apply judge_congr
      rw [forwarded, Machine.trace_append, List.filter_append, Machine.trace]
      exact (congrArg (List.filter _ _ ++ ·) (by
        rw [List.filter_append, trace_others hothers, List.append_nil]
        exact congrArg (List.filter _) hnone)).trans (List.append_nil _)
    rw [(tracks_next hchrono).verdict_eq (le_refl _) hhttp, hsame, judge_forwarded_iff]
    constructor
    · intro hall tier huses
      exact (htracks.room_later_iff hnow (hpos tier)).mp (hall tier huses)
    · intro hall tier huses
      exact (htracks.room_later_iff hnow (hpos tier)).mpr (hall tier huses)
  unfold judge at hjudge
  cases hspent : exhausted limits upper arrival.scope
      (counted limits upper (forwarded limits upper start arrivals) arrival) with
  | none =>
      rw [hspent] at hjudge
      cases hjudge
  | some first =>
      rw [hspent] at hjudge
      have hdelay : response.retryAfter = max 1 ⌈wait limits arrival.now
          (counted limits upper (forwarded limits upper start arrivals) arrival first)⌉ := by
        rw [Verdict.blocked.inj hjudge]
        rfl
      have hone : (1 : Rat) ≤ response.retryAfter := by
        rw [hdelay]
        exact_mod_cast le_max_left _ _
      constructor
      · intro hhonest found hfound tier huses hfull
        rw [hspent] at hfound
        rw [← Option.some.inj hfound, ← hdelay]
        have hchrono : Chronological Arrival.now start (arrivals ++ arrival :: [] ++
            [{ arrival with now := arrival.now + response.retryAfter }]) :=
          h.snoc (le_add_of_nonneg_right (le_trans zero_le_one hone))
        have hwaits := (hrepeat [] (arrival.now + response.retryAfter)
          (fun other hother => absurd hother List.not_mem_nil) hchrono).mp
            (hhonest [] _ (fun other hother => absurd hother List.not_mem_nil) hchrono
              (le_refl _)) tier huses hfull
        rw [add_sub_cancel_left] at hwaits
        exact hwaits
      · intro hcovers others now hothers hchrono hnow
        apply (hrepeat others now hothers hchrono).mpr
        intro tier huses hfull
        have hwaits := hcovers first hspent tier huses hfull
        rw [← hdelay] at hwaits
        exact lt_of_lt_of_le hwaits (le_sub_iff_add_le'.mpr hnow)

/-- Half a second past, the delay is rounded up. -/
theorem retryAfter_honest_single :
    exists response : TooManyRequests,
      (call single id (getAt 1) (after single id 0 [getAt (1 / 2)])).1 = .blocked response ∧
      response.retryAfter = 60 ∧
      forall others now,
        (forall other, other ∈ others -> other.scope.isHttp = true ->
          other.scope.clientIp ≠ str "127.0.0.1") ->
        Chronological Arrival.now 0 ([getAt (1 / 2)] ++ getAt 1 :: others ++ [getAt now]) ->
        1 + ((60 : Int) : Rat) ≤ now ->
          (call single id (getAt now)
            (after single id 0 ([getAt (1 / 2)] ++ getAt 1 :: others))).1 = .forwarded := by
  have hblocked : (call single id (getAt 1) (after single id 0 [getAt (1 / 2)])).1 =
      .blocked
        { statusCode := 429
          retryAfter := 60
          code := str "RATE_LIMITED"
          message := str "Too many requests; rate limit exceeded" } := by
    decide +kernel
  refine ⟨_, hblocked, rfl, ?_⟩
  refine (retryAfter_honest_iff single id 0 [getAt (1 / 2)] (getAt 1) _ ?_
    (by decide +kernel) hblocked).mpr ?_
  · intro tier
    cases tier with
    | general => decide
    | mutation => decide
    | admin => decide
  · intro first hfirst tier huses _hfull
    have hgeneral : exhausted single id (getAt 1).scope (fun tier =>
        ((after single id 0 [getAt (1 / 2)]).cleanQueues (1 - 60)
          (str "127.0.0.1")).queue tier (str "127.0.0.1")) = some .general := by
      decide +kernel
    have hsame : first = .general := Option.some.inj (hfirst.symm.trans hgeneral)
    rw [hsame]
    cases tier with
    | general => decide +kernel
    | mutation => exact absurd huses (by decide)
    | admin => exact absurd huses (by decide)

/-- Five requests under the admin prefix use up the quota.  The sixth is told to wait a
minute, and is blocked again when the minute is over. -/
theorem retryAfter_not_honest :
    exists (arrivals : List Arrival) (arrival : Arrival) (response : TooManyRequests),
      Chronological Arrival.now 0 (arrivals ++ [arrival] ++ [{ arrival with now := 60 }]) ∧
      (call RateLimits.standard id arrival (after RateLimits.standard id 0 arrivals)).1 =
        .blocked response ∧
      arrival.now + response.retryAfter ≤ 60 ∧
      (call RateLimits.standard id { arrival with now := 60 }
        (after RateLimits.standard id 0 (arrivals ++ [arrival]))).1 ≠ .forwarded :=
  ⟨List.replicate 5 ⟨0, ⟨str "http", none, none, some (str "/api/v1/admin/reset")⟩⟩,
    ⟨0, ⟨str "http", none, none, some (str "/api/v1/admin/reset")⟩⟩,
    { statusCode := 429, retryAfter := 60, code := str "RATE_LIMITED",
      message := str "Too many requests; rate limit exceeded" },
    by decide +kernel⟩

end RateLimiter

end Api

end PyChain
