import EdoPlugin.SlidingWindow
import EdoPlugin.Site

/-!
# The rate limiter

`check_rate_limit` keeps the times of the allowed calls of a key and drops those that have left the
window.  A sequence of calls, one at a time and at times that do not run backwards, is answered as if
it counted in the history of all allowed calls.
-/

namespace EdoPlugin

open SlidingWindow

/-- A call of `check_rate_limit`, and the monotonic time at which it is made. -/
structure RateCall where
  key : RateKey
  time : Rat
deriving DecidableEq, Repr

/-- The limiter, and the calls it has allowed so far, oldest first. -/
structure RateLog where
  buckets : RateBuckets
  allowed : List RateCall

def RateLog.empty : RateLog := ⟨fun _ => [], []⟩

/-- The times of the allowed calls of a key. -/
def RateLog.times (log : RateLog) (key : RateKey) : List Rat :=
  (log.allowed.filter fun call => call.key = key).map RateCall.time

section Calls

variable (limit window : RateKey → Int)

def RateLog.answer (log : RateLog) (call : RateCall) : Except PluginErr (Bool × Int) :=
  (checkRateLimit log.buckets call.key (limit call.key) (window call.key) call.time).1

def RateLog.after (log : RateLog) (call : RateCall) : RateLog where
  buckets := (checkRateLimit log.buckets call.key (limit call.key) (window call.key) call.time).2
  allowed :=
    match log.answer limit window call with
    | .ok (true, _) => log.allowed ++ [call]
    | _ => log.allowed

/-- The limiter after a sequence of calls. -/
def logAfter (calls : List RateCall) : RateLog := calls.foldl (RateLog.after limit window) .empty

/-- The call is answered after the calls before it. -/
def answerAfter (before : List RateCall) (call : RateCall) : Except PluginErr (Bool × Int) :=
  (logAfter limit window before).answer limit window call

/-- The pruned buckets agree with the history of all allowed calls. -/
structure ExactWindow (calls : List RateCall) : Prop where
  answered : ∀ before call rest, calls = before ++ call :: rest →
    answerAfter limit window before call = .ok (true, 0) ∨
      ∃ retryAfter, answerAfter limit window before call = .ok (false, retryAfter)
  refused_iff : ∀ before call rest, calls = before ++ call :: rest →
    ((∃ retryAfter, answerAfter limit window before call = .ok (false, retryAfter)) ↔
      limit call.key ≤ (within ((logAfter limit window before).times call.key)
        (call.time - window call.key) call.time).length)
  /-- No closed interval of the window's length has more than the limit. -/
  bounded : ∀ key first, ((within ((logAfter limit window calls).times key) first
    (first + window key)).length : Int) ≤ limit key
  /-- The calls on other keys play no part. -/
  independent : ∀ before call rest, calls = before ++ call :: rest →
    answerAfter limit window before call =
      answerAfter limit window (before.filter fun other => other.key = call.key) call

end Calls

/-! ## One call -/

section OneCall

variable {limit window : Int} {buckets buckets' : RateBuckets} {key other : RateKey} {now : Rat}

/-- A refusal tells when the oldest call leaves the window. -/
theorem checkRateLimit_full {oldest : Rat} {rest : List Rat}
    (hbucket : prune (buckets key) (now - window) = oldest :: rest)
    (hfull : limit ≤ (oldest :: rest).length) :
    checkRateLimit buckets key limit window now =
      (.ok (false, truncate (window - (now - oldest)) + 1),
        Function.update buckets key (oldest :: rest)) := by
  unfold checkRateLimit
  change (buckets key).dropWhile (fun t => t < now - window) = oldest :: rest at hbucket
  simp only [hbucket]
  exact if_pos hfull

/-- With a positive limit a refusal always finds an oldest call. -/
theorem checkRateLimit_refused (hlimit : 1 ≤ limit)
    (hfull : limit ≤ (prune (buckets key) (now - window)).length) :
    ∃ retryAfter, checkRateLimit buckets key limit window now =
      (.ok (false, retryAfter), Function.update buckets key (prune (buckets key) (now - window))) := by
  cases hbucket : prune (buckets key) (now - window) with
  | nil =>
    rw [hbucket, List.length_nil, Nat.cast_zero] at hfull
    omega
  | cons oldest rest =>
    rw [hbucket] at hfull
    exact ⟨_, checkRateLimit_full hbucket hfull⟩

theorem checkRateLimit_allowed
    (hfew : ¬ limit ≤ (prune (buckets key) (now - window)).length) :
    checkRateLimit buckets key limit window now =
      (.ok (true, 0), Function.update buckets key (prune (buckets key) (now - window) ++ [now])) := by
  unfold checkRateLimit
  exact if_neg hfew

/-- A call reads and writes the bucket of its key. -/
theorem checkRateLimit_congr (h : buckets key = buckets' key) :
    (checkRateLimit buckets key limit window now).1 =
        (checkRateLimit buckets' key limit window now).1 ∧
      (checkRateLimit buckets key limit window now).2 key =
        (checkRateLimit buckets' key limit window now).2 key := by
  unfold checkRateLimit
  rw [h]
  by_cases hfull : limit ≤ ((buckets' key).dropWhile fun t => t < now - window).length
  · simp [hfull]
  · simp [hfull]

theorem checkRateLimit_other (hne : other ≠ key) :
    (checkRateLimit buckets key limit window now).2 other = buckets other := by
  unfold checkRateLimit
  by_cases hfull : limit ≤ ((buckets key).dropWhile fun t => t < now - window).length
  · simp [hfull, hne]
  · simp [hfull, hne]

end OneCall

/-! ## The invariant -/

/-- Each bucket is the end of its key's history, which fills no window beyond the limit. -/
structure RateLog.Exact (limit window : RateKey → Int) (log : RateLog) (now : Rat) : Prop where
  ordered : ∀ key, Ordered (log.times key) now
  pruned : ∀ key, Prunes (log.times key) (log.buckets key) (now - window key)
  bounded : ∀ key, Bounded (limit key).toNat (window key : Rat) (log.times key)

section Sequences

variable {limit window : RateKey → Int} {log : RateLog} {call : RateCall} {now now' : Rat}

theorem RateLog.Exact.empty : RateLog.empty.Exact limit window now :=
  ⟨fun _ => .nil, fun _ => .nil, fun _ => .nil⟩

theorem RateLog.Exact.later (h : log.Exact limit window now) (hle : now ≤ now') :
    log.Exact limit window now' :=
  ⟨fun key => (h.ordered key).later hle,
    fun key => (h.pruned key).later (sub_le_sub_right hle _), h.bounded⟩

/-- What is left of the bucket is what the window holds of the history. -/
theorem RateLog.Exact.prune_eq (h : log.Exact limit window now) (key : RateKey) :
    prune (log.buckets key) (now - window key) = since (log.times key) (now - window key) :=
  (h.pruned key).prune_eq (h.ordered key).sorted

theorem RateLog.Exact.length_prune (h : log.Exact limit window now) (key : RateKey) :
    (prune (log.buckets key) (now - window key)).length =
      (within (log.times key) (now - window key) now).length := by
  rw [h.prune_eq, since_eq_within (h.ordered key)]

theorem RateLog.times_append {allowed : List RateCall} {buckets : RateBuckets} {key : RateKey} :
    RateLog.times ⟨buckets, allowed ++ [call]⟩ key =
      RateLog.times ⟨buckets, allowed⟩ key ++ if call.key = key then [call.time] else [] := by
  unfold RateLog.times
  by_cases hkey : call.key = key
  · simp [hkey]
  · simp [hkey]

/-- **A refusal** records nothing. -/
theorem RateLog.Exact.refused (h : log.Exact limit window call.time) (hlimit : 1 ≤ limit call.key)
    (hfull : limit call.key ≤ (within (log.times call.key)
      (call.time - window call.key) call.time).length) :
    (∃ retryAfter, log.answer limit window call = .ok (false, retryAfter)) ∧
      (log.after limit window call).Exact limit window call.time := by
  rw [← h.length_prune] at hfull
  obtain ⟨retryAfter, hcheck⟩ := checkRateLimit_refused hlimit hfull
  have hanswer : log.answer limit window call = .ok (false, retryAfter) := by
    rw [RateLog.answer, hcheck]
  refine ⟨⟨retryAfter, hanswer⟩, ?_⟩
  have hafter : log.after limit window call = ⟨Function.update log.buckets call.key
      (prune (log.buckets call.key) (call.time - window call.key)), log.allowed⟩ := by
    unfold RateLog.after
    rw [hanswer, hcheck]
  rw [hafter]
  refine ⟨h.ordered, ?_, h.bounded⟩
  intro key
  by_cases hkey : key = call.key
  · subst hkey
    simp only [Function.update_self]
    rw [h.prune_eq]
    exact ⟨_, le_rfl, rfl⟩
  · simp only [Function.update_of_ne hkey]
    exact h.pruned key

/-- **An allowed call** is one more entry of its key. -/
theorem RateLog.Exact.allowed (h : log.Exact limit window call.time) (hwindow : 1 ≤ window call.key)
    (hfew : ¬ limit call.key ≤ (within (log.times call.key)
      (call.time - window call.key) call.time).length) :
    log.answer limit window call = .ok (true, 0) ∧
      (log.after limit window call).Exact limit window call.time := by
  have hpruned := hfew
  rw [← h.length_prune] at hpruned
  have hcheck := checkRateLimit_allowed hpruned
  have hanswer : log.answer limit window call = .ok (true, 0) := by rw [RateLog.answer, hcheck]
  refine ⟨hanswer, ?_⟩
  have hafter : log.after limit window call = ⟨Function.update log.buckets call.key
      (prune (log.buckets call.key) (call.time - window call.key) ++ [call.time]),
      log.allowed ++ [call]⟩ := by
    unfold RateLog.after
    rw [hanswer, hcheck]
  have htimes : ∀ key, RateLog.times ⟨Function.update log.buckets call.key
      (prune (log.buckets call.key) (call.time - window call.key) ++ [call.time]),
      log.allowed ++ [call]⟩ key = log.times key ++ if call.key = key then [call.time] else [] :=
    fun key => RateLog.times_append
  rw [hafter]
  constructor
  · intro key
    rw [htimes]
    by_cases hkey : call.key = key
    · rw [if_pos hkey]
      exact (h.ordered key).append
    · rw [if_neg hkey, List.append_nil]
      exact h.ordered key
  · intro key
    rw [htimes]
    by_cases hkey : call.key = key
    · subst hkey
      simp only [Function.update_self, if_true]
      rw [h.prune_eq]
      apply Prunes.append
      have hpos : (0 : Rat) ≤ window call.key := by exact_mod_cast (by omega : 0 ≤ window call.key)
      linarith
    · rw [if_neg hkey, List.append_nil]
      simp only [Function.update_of_ne (Ne.symm hkey)]
      exact h.pruned key
  · intro key
    rw [htimes]
    by_cases hkey : call.key = key
    · subst hkey
      rw [if_pos rfl]
      exact .append (h.bounded _) (h.ordered _) (by omega)
    · rw [if_neg hkey, List.append_nil]
      exact h.bounded key

/-- **One call.** -/
theorem RateLog.Exact.step (h : log.Exact limit window call.time) (hlimit : 1 ≤ limit call.key)
    (hwindow : 1 ≤ window call.key) : (log.after limit window call).Exact limit window call.time := by
  by_cases hfull : limit call.key ≤ (within (log.times call.key)
      (call.time - window call.key) call.time).length
  · exact (h.refused hlimit hfull).2
  · exact (h.allowed hwindow hfull).2

/-! ## Any sequence of calls -/

theorem logAfter_append (calls : List RateCall) :
    logAfter limit window (calls ++ [call]) = (logAfter limit window calls).after limit window call := by
  simp [logAfter]

theorem exact_logAfter (hlimit : ∀ key, 1 ≤ limit key) (hwindow : ∀ key, 1 ≤ window key)
    (calls : List RateCall) (htimes : (calls.map RateCall.time).Pairwise (· ≤ ·)) (now : Rat)
    (hpast : ∀ call ∈ calls, call.time ≤ now) :
    (logAfter limit window calls).Exact limit window now := by
  induction calls using List.reverseRecOn generalizing now with
  | nil => exact .empty
  | append_singleton calls call ih =>
    rw [List.map_append, List.pairwise_append] at htimes
    obtain ⟨hsorted, -, hbefore⟩ := htimes
    have hlast : ∀ other ∈ calls, other.time ≤ call.time := fun other hother =>
      hbefore other.time (List.mem_map_of_mem hother) call.time (by simp)
    rw [logAfter_append]
    have hstep := (ih hsorted call.time hlast).step (hlimit call.key) (hwindow call.key)
    exact hstep.later (hpast call (by simp))

/-- The bucket of a key depends on the calls on that key. -/
theorem buckets_logAfter (calls : List RateCall) (key : RateKey) :
    (logAfter limit window calls).buckets key =
      (logAfter limit window (calls.filter fun call => call.key = key)).buckets key := by
  induction calls using List.reverseRecOn with
  | nil => rfl
  | append_singleton calls call ih =>
    rw [logAfter_append, List.filter_append]
    by_cases hkey : call.key = key
    · subst hkey
      simp only [List.filter_singleton, decide_true, cond_true, logAfter_append]
      exact (checkRateLimit_congr ih).2
    · have hnone : [call].filter (fun call => call.key = key) = [] := by simp [hkey]
      rw [hnone, List.append_nil, ← ih]
      exact checkRateLimit_other (Ne.symm hkey)

end Sequences

/-- **The limiter is an exact sliding window**, for every sequence of calls at non-decreasing times. -/
theorem rateLimiter_exact (limit window : RateKey → Int) (calls : List RateCall)
    (hlimit : ∀ key, 1 ≤ limit key) (hwindow : ∀ key, 1 ≤ window key)
    (htimes : (calls.map RateCall.time).Pairwise (· ≤ ·)) : ExactWindow limit window calls := by
  have hexact : ∀ before call rest, calls = before ++ call :: rest →
      (logAfter limit window before).Exact limit window call.time := by
    rintro before call rest rfl
    rw [List.map_append, List.pairwise_append] at htimes
    apply exact_logAfter hlimit hwindow before htimes.1
    intro other hother
    exact htimes.2.2 other.time (List.mem_map_of_mem hother) call.time (by simp)
  constructor
  case answered =>
    intro before call rest hcalls
    have h := hexact before call rest hcalls
    by_cases hfull : limit call.key ≤ (within ((logAfter limit window before).times call.key)
        (call.time - window call.key) call.time).length
    · exact Or.inr (h.refused (hlimit _) hfull).1
    · exact Or.inl (h.allowed (hwindow _) hfull).1
  case refused_iff =>
    intro before call rest hcalls
    have h := hexact before call rest hcalls
    constructor
    · rintro ⟨retryAfter, hrefused⟩
      by_contra hfew
      have hallowed := (h.allowed (hwindow _) hfew).1
      rw [← answerAfter, hrefused] at hallowed
      cases hallowed
    · exact fun hfull => (h.refused (hlimit _) hfull).1
  case bounded =>
    intro key first
    obtain ⟨now, hpast⟩ : ∃ now, ∀ call ∈ calls, call.time ≤ now := by
      obtain ⟨now, hnow⟩ := (calls.map RateCall.time).toFinset.bddAbove
      exact ⟨now, fun call hcall => hnow (by simpa using ⟨call, hcall, rfl⟩)⟩
    have h := exact_logAfter hlimit hwindow calls htimes now hpast
    have hle := (h.bounded key).length_within_le first
    have hpos := hlimit key
    omega
  case independent =>
    intro before call rest _
    exact (checkRateLimit_congr (buckets_logAfter before call.key)).1

/-- Two calls a minute.  At second 60 the call of second 0 still counts, one second later it does not. -/
def fourCalls : List RateCall :=
  [⟨(⟨"team", 1⟩, 1), 0⟩, ⟨(⟨"team", 1⟩, 1), 20⟩, ⟨(⟨"team", 1⟩, 1), 60⟩, ⟨(⟨"team", 1⟩, 1), 61⟩]

theorem rateLimiter_exact_fourCalls : ExactWindow (fun _ => 2) (fun _ => 60) fourCalls :=
  rateLimiter_exact _ _ fourCalls (fun _ => by decide) (fun _ => by decide) (by decide +kernel)

end EdoPlugin
