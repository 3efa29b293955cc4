import Mathlib.Tactic.Positivity
import HttpSmtpRele.RateLimit

/-!
# What a token bucket admits

The tokens of a bucket, refilled when it is consulted and capped, are the level
of the envelope of its burst and rate (`Tracks`).  So the calls that succeed are
those that fit into the envelope, whatever was refused in between.
-/

namespace HttpSmtpRele

theorem seconds_sub {s t : Instant} (h : s ≤ t) : seconds (t - s) = seconds t - seconds s := by
  unfold seconds
  rw [Nat.cast_sub h, sub_div]

theorem seconds_mono : Monotone seconds := by
  intro s t h
  have : (s : ℚ) ≤ t := Nat.cast_le.mpr h
  unfold seconds
  exact div_le_div_of_nonneg_right this (by norm_num)

namespace TokenBucket

theorem seconds_nonneg (n : Nat) : 0 ≤ seconds n :=
  div_nonneg (Nat.cast_nonneg n) (by norm_num)

section
variable {b : TokenBucket} {s t : Instant}

theorem tokens_refill (t : Instant) (b : TokenBucket) :
    (b.refill t).tokens =
      min (b.tokens + seconds (t - b.lastRefill) * b.tokensPerSec) b.capacity := rfl

theorem seconds_add_sub (h : b.lastRefill ≤ s) (h' : s ≤ t) :
    seconds (t - b.lastRefill) = seconds (s - b.lastRefill) + seconds (t - s) := by
  rw [seconds_sub (h.trans h'), seconds_sub h, seconds_sub h']
  ring

/-- Refilling on the way changes nothing. -/
theorem refill_refill (hrate : 0 ≤ b.tokensPerSec) (hs : b.lastRefill ≤ s) (hst : s ≤ t) :
    (b.refill s).refill t = b.refill t := by
  have hadded : 0 ≤ seconds (t - s) * b.tokensPerSec := mul_nonneg (seconds_nonneg _) hrate
  have htokens : min (min (b.tokens + seconds (s - b.lastRefill) * b.tokensPerSec) b.capacity +
      seconds (t - s) * b.tokensPerSec) b.capacity = (b.refill t).tokens := by
    rw [tokens_refill, seconds_add_sub hs hst, add_mul, ← add_assoc, ← min_add_add_right,
      min_assoc, min_eq_right (le_add_of_nonneg_right hadded)]
  exact congrArg (fun tokens => (⟨b.capacity, b.tokensPerSec, tokens, t⟩ : TokenBucket)) htokens

end

/-- The envelope of a bucket with this rate and burst. -/
def envelope (perMinute burst : Nat) : RateEnvelope Instant ℚ where
  burst := burst
  rate := perMinute / 60
  clock := seconds
  burst_nonneg := Nat.cast_nonneg burst
  rate_nonneg := div_nonneg (Nat.cast_nonneg perMinute) (by norm_num)
  clock_mono := seconds_mono

/-- After calls at these instants, in order. -/
def after (b : TokenBucket) (calls : List Instant) : TokenBucket :=
  calls.foldl (fun b t => (b.tryConsume t).2) b

/-- Which calls succeed. -/
def outcomes : TokenBucket → List Instant → List Bool
  | _, [] => []
  | b, t :: ts => (b.tryConsume t).1.isOk :: outcomes (b.tryConsume t).2 ts

/-- The instants of the calls that succeed, the last one first. -/
def taken : TokenBucket → List Instant → List Instant
  | _, [] => []
  | b, t :: ts => taken (b.tryConsume t).2 ts ++ if (b.tryConsume t).1.isOk then [t] else []

/-- The bucket, created with this rate and burst, holds what the calls at `takes` have left. -/
structure Tracks (b : TokenBucket) (perMinute burst : Nat) (created : Instant)
    (takes : List Instant) : Prop where
  capacity : b.capacity = burst
  rate : b.tokensPerSec = perMinute / 60
  level : (envelope perMinute burst).Level created takes b.lastRefill b.tokens

variable {b b' : TokenBucket} {perMinute burst : Nat} {created now : Instant}
variable {takes calls : List Instant}

theorem new_tracks (perMinute burst : Nat) (created : Instant) :
    (new perMinute burst created).Tracks perMinute burst created [] :=
  ⟨rfl, rfl, RateEnvelope.Level.initial created⟩

theorem tryConsume_of_full (h : 1 ≤ (b.refill now).tokens) :
    b.tryConsume now =
      (.ok (), { b.refill now with tokens := (b.refill now).tokens - 1 }) :=
  if_pos h

theorem tryConsume_of_empty (h : ¬1 ≤ (b.refill now).tokens) :
    b.tryConsume now =
      (.error (max (wait (1 - (b.refill now).tokens) (b.refill now).tokensPerSec) 1),
        b.refill now) :=
  if_neg h

theorem isOk_tryConsume_iff (now : Instant) (b : TokenBucket) :
    (b.tryConsume now).1.isOk = true ↔ 1 ≤ (b.refill now).tokens := by
  by_cases h : 1 ≤ (b.refill now).tokens
  · rw [tryConsume_of_full h]
    exact ⟨fun _ => h, fun _ => rfl⟩
  · rw [tryConsume_of_empty h]
    exact ⟨fun hok => absurd hok Bool.false_ne_true, fun hok => absurd hok h⟩

@[simp] theorem lastRefill_tryConsume (now : Instant) (b : TokenBucket) :
    (b.tryConsume now).2.lastRefill = now := by
  by_cases h : 1 ≤ (b.refill now).tokens
  · rw [tryConsume_of_full h]
    rfl
  · rw [tryConsume_of_empty h]
    rfl

theorem refill_tracks (h : b.Tracks perMinute burst created takes) (hnow : b.lastRefill ≤ now) :
    (b.refill now).Tracks perMinute burst created takes := by
  refine ⟨h.capacity, h.rate, ?_⟩
  have hlevel := h.level.refill hnow
  have htokens : (b.refill now).tokens =
      min (b.tokens + perMinute / 60 * (seconds now - seconds b.lastRefill)) burst := by
    show min (b.tokens + seconds (now - b.lastRefill) * b.tokensPerSec) b.capacity = _
    rw [h.capacity, h.rate, seconds_sub hnow, mul_comm]
  rw [htokens]
  exact hlevel

theorem tryConsume_tracks (h : b.Tracks perMinute burst created takes)
    (hnow : b.lastRefill ≤ now) :
    (b.tryConsume now).2.Tracks perMinute burst created
      ((if (b.tryConsume now).1.isOk then [now] else []) ++ takes) := by
  have hrefill := refill_tracks h hnow
  by_cases hfull : 1 ≤ (b.refill now).tokens
  · rw [tryConsume_of_full hfull]
    exact ⟨hrefill.capacity, hrefill.rate, hrefill.level.take⟩
  · rw [tryConsume_of_empty hfull]
    exact hrefill

/-- A call succeeds exactly if it fits. -/
theorem admits_iff_fits (h : b.Tracks perMinute burst created takes) (hnow : b.lastRefill ≤ now) :
    (b.tryConsume now).1.isOk = true ↔ (envelope perMinute burst).Fits created takes now := by
  rw [isOk_tryConsume_iff]
  exact (refill_tracks h hnow).level.one_le_iff

/-- What is left depends on what was taken only. -/
theorem outcomes_eq_of_tracks (h : b.Tracks perMinute burst created takes)
    (h' : b'.Tracks perMinute burst created takes)
    (hcalls : (b.lastRefill :: calls).Pairwise (· ≤ ·))
    (hcalls' : (b'.lastRefill :: calls).Pairwise (· ≤ ·)) :
    b'.outcomes calls = b.outcomes calls := by
  induction calls generalizing b b' takes with
  | nil => rfl
  | cons t ts ih =>
    have ht : b.lastRefill ≤ t := (List.pairwise_cons.mp hcalls).1 t List.mem_cons_self
    have ht' : b'.lastRefill ≤ t := (List.pairwise_cons.mp hcalls').1 t List.mem_cons_self
    have hsame : (b'.tryConsume t).1.isOk = (b.tryConsume t).1.isOk := by
      rw [Bool.eq_iff_iff, admits_iff_fits h ht, admits_iff_fits h' ht']
    have hnext := tryConsume_tracks h ht
    have hnext' := tryConsume_tracks h' ht'
    rw [hsame] at hnext'
    have hts := (List.pairwise_cons.mp hcalls).2
    rw [outcomes, outcomes, hsame]
    congr 1
    refine ih hnext hnext' ?_ ?_
    · rwa [lastRefill_tryConsume]
    · rwa [lastRefill_tryConsume]

/-- A run keeps the level, and takes no more than the envelope allows. -/
theorem run_tracks (h : b.Tracks perMinute burst created takes)
    (hconforms : (envelope perMinute burst).Conforms created takes)
    (hcalls : (b.lastRefill :: calls).Pairwise (· ≤ ·)) :
    (b.after calls).Tracks perMinute burst created (b.taken calls ++ takes) ∧
      (envelope perMinute burst).Conforms created (b.taken calls ++ takes) := by
  induction calls generalizing b takes with
  | nil => exact ⟨h, hconforms⟩
  | cons t ts ih =>
    have ht : b.lastRefill ≤ t := (List.pairwise_cons.mp hcalls).1 t List.mem_cons_self
    have hts := (List.pairwise_cons.mp hcalls).2
    have hnext := tryConsume_tracks h ht
    have hconforms' : (envelope perMinute burst).Conforms created
        ((if (b.tryConsume t).1.isOk then [t] else []) ++ takes) := by
      by_cases hok : (b.tryConsume t).1.isOk = true
      · rw [if_pos hok]
        refine ⟨⟨h.level.birth_le.trans ht, ?_⟩, (admits_iff_fits h ht).mp hok, hconforms⟩
        intro t' ht'
        exact (h.level.past t' ht').trans ht
      · rw [if_neg hok]
        exact hconforms
    have hrun := ih hnext hconforms' (by rwa [lastRefill_tryConsume])
    rw [taken, List.append_assoc]
    exact hrun

/-- The last call is the last one that refilled. -/
theorem lastRefill_after_le {t : Instant}
    (hcalls : (b.lastRefill :: (calls ++ [t])).Pairwise (· ≤ ·)) :
    (b.after calls).lastRefill ≤ t := by
  induction calls generalizing b with
  | nil => exact (List.pairwise_cons.mp hcalls).1 t List.mem_cons_self
  | cons t' ts ih =>
    apply ih
    rw [lastRefill_tryConsume]
    exact (List.pairwise_cons.mp hcalls).2

end TokenBucket

open TokenBucket in
/-- Admission is the envelope: after any calls, a call succeeds exactly if with it
no window since the creation holds more than the burst and what the rate adds;
no window at all does, in any run; and a call that is refused leaves no trace. -/
theorem tryConsume_envelope (perMinute burst : Nat) (created : Instant) (calls : List Instant)
    (t : Instant) (hcalls : (created :: (calls ++ [t])).Pairwise (· ≤ ·)) :
    let fresh := TokenBucket.new perMinute burst created
    let b := fresh.after calls
    let takes := fresh.taken calls
    ((b.tryConsume t).1.isOk = true ↔
      ∀ s, created ≤ s → s ≤ t →
        ((takes.countP fun t' => s ≤ t' ∧ t' ≤ t : Nat) : ℚ) + 1 ≤
          burst + perMinute / 60 * seconds (t - s)) ∧
    (∀ s u, s ≤ u →
      ((takes.countP fun t' => s ≤ t' ∧ t' ≤ u : Nat) : ℚ) ≤
        burst + perMinute / 60 * seconds (u - s)) ∧
    (∀ later, (t :: later).Pairwise (· ≤ ·) → (b.tryConsume t).1.isOk = false →
      (b.tryConsume t).2.outcomes later = b.outcomes later) := by
  intro fresh b takes
  have hprefix : (created :: calls).Pairwise (· ≤ ·) :=
    hcalls.sublist ((List.sublist_append_left calls [t]).cons_cons created)
  have hrun := run_tracks (new_tracks perMinute burst created) trivial hprefix
  rw [List.append_nil] at hrun
  obtain ⟨htracks, hconforms⟩ := hrun
  have hlast : b.lastRefill ≤ t := lastRefill_after_le (b := fresh) hcalls
  refine ⟨?_, ?_, ?_⟩
  · rw [admits_iff_fits htracks hlast]
    refine forall_congr' fun s => imp_congr_right fun _ => imp_congr_right fun hst => ?_
    have hwithin : (takes.countP fun t' => s ≤ t' ∧ t' ≤ t) = RateEnvelope.takenSince takes s := by
      apply List.countP_congr
      intro t' ht'
      have hpast : t' ≤ t := (htracks.level.past t' ht').trans hlast
      simp [hpast]
    rw [hwithin, seconds_sub hst]
    exact Iff.rfl
  · intro s u hsu
    rw [seconds_sub hsu]
    exact hconforms.takenWithin_le hsu
  · intro later hlater hrefused
    have hnext := tryConsume_tracks htracks hlast
    rw [hrefused] at hnext
    refine outcomes_eq_of_tracks htracks hnext ?_ ?_
    · refine List.pairwise_cons.mpr ⟨fun t' ht' => ?_, (List.pairwise_cons.mp hlater).2⟩
      exact hlast.trans ((List.pairwise_cons.mp hlater).1 t' ht')
    · rwa [lastRefill_tryConsume]

open TokenBucket in
/-- One token a second: the second call comes too early, the third does not. -/
theorem tryConsume_envelope_sample :
    (TokenBucket.new 60 1 0).outcomes [0, 500000000, 1000000000] = [true, false, true] ∧
      ∀ s u, s ≤ u →
        ((((TokenBucket.new 60 1 0).taken [0, 500000000]).countP
          fun t' => s ≤ t' ∧ t' ≤ u : Nat) : ℚ) ≤ (1 : Nat) + (60 : Nat) / 60 * seconds (u - s) :=
  ⟨by decide +kernel, (tryConsume_envelope 60 1 0 [0, 500000000] 1000000000 (by decide)).2.1⟩

end HttpSmtpRele
