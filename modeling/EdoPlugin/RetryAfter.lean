import EdoPlugin.RateLimiter

/-!
# When to come back

A refused call is told how many seconds to wait: until the oldest call that counts has left the
window, rounded up to a whole second after that.  Then there is one call less and room again; a
second earlier there is none.
-/

namespace EdoPlugin

open SlidingWindow

theorem truncate_of_nonneg {q : Rat} (h : 0 ≤ q) : truncate q = ⌊q⌋ := by
  rw [truncate, Rat.floor_def', Int.tdiv_eq_ediv_of_nonneg (Rat.num_nonneg.mpr h)]

variable {limit window : RateKey → Int} {log : RateLog} {calls others : List RateCall}
  {key : RateKey} {now cutoff oldest : Rat} {rest : List Rat} {retryAfter : Int}

/-! ## A full bucket -/

/-- The calls that count for a key are as many as may. -/
structure RateLog.Full (limit window : RateKey → Int) (log : RateLog) (key : RateKey) (now oldest : Rat)
    (rest : List Rat) : Prop where
  bucket : prune (log.buckets key) (now - window key) = oldest :: rest
  length : (rest.length : Int) + 1 = limit key
  past : oldest ≤ now
  kept : now - window key ≤ oldest

/-- A refused call finds as many calls in the window as may be there, and no more. -/
theorem RateLog.Exact.full (h : log.Exact limit window now) (hlimit : 1 ≤ limit key)
    (hfull : limit key ≤ (prune (log.buckets key) (now - window key)).length) :
    ∃ oldest rest, log.Full limit window key now oldest rest := by
  have hwithin := h.prune_eq key
  rw [since_eq_within (h.ordered key)] at hwithin
  have hbound := (h.bounded key).length_within_le (now - window key)
  rw [sub_add_cancel, ← hwithin] at hbound
  cases hbucket : prune (log.buckets key) (now - window key) with
  | nil =>
    rw [hbucket, List.length_nil, Nat.cast_zero] at hfull
    omega
  | cons oldest rest =>
    have hmem : oldest ∈ within (log.times key) (now - window key) now := by
      rw [← hwithin, hbucket]
      exact List.mem_cons_self
    obtain ⟨-, hin⟩ := List.mem_filter.mp hmem
    obtain ⟨hkept, hpast⟩ := of_decide_eq_true hin
    rw [hbucket, List.length_cons] at hfull hbound
    refine ⟨oldest, rest, hbucket, ?_, hpast, hkept⟩
    omega

theorem RateLog.Full.limit_le (h : log.Full limit window key now oldest rest) :
    limit key ≤ (oldest :: rest).length := by
  have := h.length
  simp only [List.length_cons]
  omega

theorem RateLog.Full.answer_eq (h : log.Full limit window key now oldest rest) :
    log.answer limit window ⟨key, now⟩ =
      .ok (false, ⌊(window key : Rat) - (now - oldest)⌋ + 1) := by
  have hnonneg : (0 : Rat) ≤ window key - (now - oldest) := by linarith [h.kept]
  rw [RateLog.answer, checkRateLimit_full h.bucket h.limit_le, truncate_of_nonneg hnonneg]

/-- The bucket after the refusal. -/
theorem RateLog.Full.after_eq (h : log.Full limit window key now oldest rest) :
    (log.after limit window ⟨key, now⟩).buckets key = oldest :: rest := by
  simp only [RateLog.after, checkRateLimit_full h.bucket h.limit_le, Function.update_self]

/-- Calls on other keys leave the bucket alone. -/
theorem buckets_logAfter_others (hothers : ∀ call ∈ others, call.key ≠ key) :
    (logAfter limit window (calls ++ others)).buckets key =
      (logAfter limit window calls).buckets key := by
  have hnone : others.filter (fun call => call.key = key) = [] := by
    rw [List.filter_eq_nil_iff]
    intro call hcall hkey
    exact hothers call hcall (of_decide_eq_true hkey)
  rw [buckets_logAfter, List.filter_append, hnone, List.append_nil, ← buckets_logAfter]

/-! ## The next call -/

/-- As long as the oldest call counts, nothing has changed. -/
theorem answer_refused (hbucket : log.buckets key = oldest :: rest)
    (hfull : limit key ≤ (oldest :: rest).length) (hkept : now - window key ≤ oldest) :
    ∃ retryAfter, log.answer limit window ⟨key, now⟩ = .ok (false, retryAfter) := by
  have hprune : prune (log.buckets key) (now - window key) = oldest :: rest := by
    rw [hbucket, prune, List.dropWhile_cons_of_neg (by simpa using hkept)]
  rw [RateLog.answer, checkRateLimit_full hprune hfull]
  exact ⟨_, rfl⟩

/-- Once it has left the window, there is room. -/
theorem answer_allowed (hbucket : log.buckets key = oldest :: rest)
    (hlength : (rest.length : Int) < limit key) (hgone : oldest < now - window key) :
    log.answer limit window ⟨key, now⟩ = .ok (true, 0) := by
  have hprune : (prune (log.buckets key) (now - window key)).length ≤ rest.length := by
    rw [hbucket, prune, List.dropWhile_cons_of_pos (by simpa using hgone)]
    exact (List.dropWhile_sublist _).length_le
  have hfew : ¬ limit key ≤ (prune (log.buckets key) (now - window key)).length := by omega
  rw [RateLog.answer, checkRateLimit_allowed hfew]

/-- The moment a refused call is told to come back at is the first whole number of seconds later at
    which it is allowed. -/
structure ExactRetry (limit window : RateKey → Int) (calls others : List RateCall) (key : RateKey)
    (now : Rat) (retryAfter : Int) : Prop where
  least : 1 ≤ retryAfter
  most : retryAfter ≤ window key + 1
  allowed : answerAfter limit window (calls ++ ⟨key, now⟩ :: others) ⟨key, now + retryAfter⟩ =
    .ok (true, 0)
  refused : ∀ seconds : Int, 0 ≤ seconds → seconds < retryAfter → ∃ later,
    answerAfter limit window (calls ++ ⟨key, now⟩ :: others) ⟨key, now + seconds⟩ = .ok (false, later)

/-- **`retry_after` is exact**: after any calls at times that do not run backwards, and whatever is
    called on other keys in between. -/
theorem retryAfter_exact (limit window : RateKey → Int) (calls others : List RateCall) (key : RateKey)
    (now : Rat) (retryAfter : Int) (hlimit : ∀ key, 1 ≤ limit key) (hwindow : ∀ key, 1 ≤ window key)
    (htimes : (calls.map RateCall.time).Pairwise (· ≤ ·)) (hpast : ∀ call ∈ calls, call.time ≤ now)
    (hothers : ∀ call ∈ others, call.key ≠ key)
    (hrefused : answerAfter limit window calls ⟨key, now⟩ = .ok (false, retryAfter)) :
    ExactRetry limit window calls others key now retryAfter := by
  have hexact := exact_logAfter hlimit hwindow calls htimes now hpast
  have hfull : limit key ≤ (prune ((logAfter limit window calls).buckets key)
      (now - window key)).length := by
    by_contra hfew
    rw [answerAfter, RateLog.answer, checkRateLimit_allowed hfew] at hrefused
    cases hrefused
  obtain ⟨oldest, rest, h⟩ := hexact.full (hlimit key) hfull
  have hretry : retryAfter = ⌊(window key : Rat) - (now - oldest)⌋ + 1 := by
    rw [answerAfter, h.answer_eq] at hrefused
    cases hrefused
    rfl
  have hbucket : (logAfter limit window (calls ++ ⟨key, now⟩ :: others)).buckets key =
      oldest :: rest := by
    rw [List.append_cons, buckets_logAfter_others hothers, logAfter_append, h.after_eq]
  have hnonneg : 0 ≤ ⌊(window key : Rat) - (now - oldest)⌋ :=
    Int.floor_nonneg.mpr (by linarith [h.kept])
  constructor
  case least => omega
  case most =>
    have hle : ⌊(window key : Rat) - (now - oldest)⌋ ≤ window key := by
      rw [Int.floor_le_iff]
      linarith [h.past]
    omega
  case allowed =>
    apply answer_allowed hbucket
    · have := h.length
      omega
    · have hlt := Int.lt_floor_add_one ((window key : Rat) - (now - oldest))
      rw [hretry]
      push_cast
      linarith
  case refused =>
    intro seconds _ hseconds
    apply answer_refused hbucket h.limit_le
    · have hle : (seconds : Rat) ≤ window key - (now - oldest) :=
        Int.le_floor.mp (by omega)
      linarith

/-- One call a minute: half a second after it the wait is sixty seconds. -/
theorem retryAfter_exact_half : ExactRetry (fun _ => 1) (fun _ => 60) [⟨(⟨"team", 1⟩, 1), 0⟩]
    [⟨(⟨"team", 2⟩, 1), 7⟩] (⟨"team", 1⟩, 1) (1 / 2) 60 :=
  retryAfter_exact (fun _ => 1) (fun _ => 60) [⟨(⟨"team", 1⟩, 1), 0⟩] [⟨(⟨"team", 2⟩, 1), 7⟩]
    (⟨"team", 1⟩, 1) (1 / 2) 60 (fun _ => by decide) (fun _ => by decide) (by simp) (by norm_num)
    (by decide) (by decide +kernel)

end EdoPlugin
