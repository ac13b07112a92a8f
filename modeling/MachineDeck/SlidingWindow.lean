import Mathlib.Algebra.Order.Monoid.Unbundled.Basic
import Mathlib.Data.List.Basic

/-!
# Sliding windows

A limiter that admits an attempt while fewer than `limit` failures lie in the window behind it.  A
failure is remembered, a success forgets all failures, and an attempt that is not admitted leaves
no trace.

* `step`, `run` — one attempt, and a sequence of them;
* `failedWithin_le` — in a window without a success no more than `limit` attempts fail;
* `limit_le_of_limited` — what is not admitted has that many failures in the window behind it.
-/

namespace SlidingWindow

variable {τ : Type*} [LinearOrder τ] [Add τ]

inductive Verdict where
  | limited
  | failed
  | passed
  deriving DecidableEq, Repr

/-- The failures in the window behind a time. -/
def recent (window : τ) (now : τ) (failures : List τ) : ℕ :=
  failures.countP fun failure => decide (now ≤ failure + window)

/-- One attempt, which fails or passes where it is admitted. -/
def step (limit : ℕ) (window : τ) (failures : List τ) (now : τ) (good : Bool) : List τ × Verdict :=
  if limit ≤ recent window now failures then (failures, .limited)
  else if good then ([], .passed)
  else (failures ++ [now], .failed)

def run (limit : ℕ) (window : τ) : List τ → List (τ × Bool) → List (τ × Verdict)
  | _, [] => []
  | failures, (now, good) :: rest =>
    (now, (step limit window failures now good).2) ::
      run limit window (step limit window failures now good).1 rest

variable {limit : ℕ} {window : τ}

/-! ### One step -/

theorem step_limited {failures : List τ} {now : τ} (good : Bool)
    (h : limit ≤ recent window now failures) :
    step limit window failures now good = (failures, .limited) := if_pos h

theorem step_passed {failures : List τ} {now : τ} (h : recent window now failures < limit) :
    step limit window failures now true = ([], .passed) := by
  rw [step, if_neg (Nat.not_le.mpr h), if_pos rfl]

theorem step_failed {failures : List τ} {now : τ} (h : recent window now failures < limit) :
    step limit window failures now false = (failures ++ [now], .failed) := by
  rw [step, if_neg (Nat.not_le.mpr h), if_neg Bool.false_ne_true]

theorem recent_append (now failure : τ) (failures : List τ) :
    recent window now (failures ++ [failure]) =
      recent window now failures + if now ≤ failure + window then 1 else 0 := by
  rw [recent, List.countP_append, List.countP_singleton]
  simp only [decide_eq_true_eq]
  rfl

/-- A step remembers at most its own failure. -/
theorem recent_step_le (failures : List τ) (now : τ) (good : Bool) (later : τ) :
    recent window later (step limit window failures now good).1 ≤
      recent window later failures +
        if (step limit window failures now good).2 = .failed ∧ later ≤ now + window then 1
        else 0 := by
  by_cases hlimit : limit ≤ recent window now failures
  · rw [step_limited good hlimit]
    exact Nat.le_add_right _ _
  · rw [Nat.not_le] at hlimit
    cases good with
    | true =>
        rw [step_passed hlimit]
        exact Nat.zero_le _
    | false =>
        rw [step_failed hlimit, recent_append]
        simp

theorem times_run (failures : List τ) (attempts : List (τ × Bool)) :
    (run limit window failures attempts).map Prod.fst = attempts.map Prod.fst := by
  induction attempts generalizing failures with
  | nil => rfl
  | cons attempt attempts ih => rw [run, List.map_cons, List.map_cons, ih]

/-! ### The bound -/

/-- The failures that are remembered from the beginning of an interval on. -/
def since (start : τ) (failures : List τ) : ℕ :=
  failures.countP fun failure => decide (start ≤ failure)

/-- An entry of a run that failed between two times. -/
def failedWithin (start finish : τ) (entry : τ × Verdict) : Bool :=
  decide (start ≤ entry.1) && decide (entry.1 ≤ finish) && decide (entry.2 = .failed)

omit [Add τ] in
theorem since_append (start failure : τ) (failures : List τ) :
    since start (failures ++ [failure]) =
      since start failures + if start ≤ failure then 1 else 0 := by
  rw [since, List.countP_append, List.countP_singleton]
  simp only [decide_eq_true_eq]
  rfl

theorem since_le_recent [AddRightMono τ] {start now : τ} (hnow : now ≤ start + window)
    (failures : List τ) : since start failures ≤ recent window now failures := by
  apply List.countP_mono_left
  intro failure _ hstart
  exact decide_eq_true (hnow.trans (add_le_add_left (of_decide_eq_true hstart) window))

theorem mem_times {failures : List τ} {attempts : List (τ × Bool)} {entry : τ × Verdict}
    (h : entry ∈ run limit window failures attempts) : entry.1 ∈ attempts.map Prod.fst := by
  rw [← @times_run τ _ _ limit window failures attempts]
  exact List.mem_map_of_mem h

theorem failedWithin_late {start finish : τ} {failures : List τ} {attempts : List (τ × Bool)}
    (h : ∀ now ∈ attempts.map Prod.fst, finish < now) :
    (run limit window failures attempts).countP (failedWithin start finish) = 0 := by
  rw [List.countP_eq_zero]
  intro entry hentry hwithin
  have hfinish : entry.1 ≤ finish := by simp_all [failedWithin]
  exact not_le_of_gt (h entry.1 (mem_times hentry)) hfinish

/-- In an interval as long as the window in which nothing passes, a failure needs room below the
limit beside the failures since its beginning. -/
theorem failedWithin_le_sub [AddRightMono τ] {start : τ} {attempts : List (τ × Bool)}
    (hsorted : (attempts.map Prod.fst).Pairwise (· ≤ ·))
    (hstart : ∀ now ∈ attempts.map Prod.fst, start ≤ now) (failures : List τ)
    (hpassed : ∀ entry ∈ run limit window failures attempts,
      entry.1 ≤ start + window → entry.2 ≠ .passed) :
    (run limit window failures attempts).countP (failedWithin start (start + window)) ≤
      limit - since start failures := by
  induction attempts generalizing failures with
  | nil => exact Nat.zero_le _
  | cons attempt attempts ih =>
      obtain ⟨now, good⟩ := attempt
      rw [List.map_cons, List.pairwise_cons] at hsorted
      obtain ⟨hlater, hsorted⟩ := hsorted
      have hnow : start ≤ now := hstart now List.mem_cons_self
      by_cases hend : now ≤ start + window
      · have htail := ih hsorted (fun t ht => hstart t (List.mem_cons_of_mem now ht))
          (step limit window failures now good).1
          fun entry hentry => hpassed entry (List.mem_cons_of_mem _ hentry)
        have hhead : (step limit window failures now good).2 ≠ .passed :=
          hpassed _ List.mem_cons_self hend
        have hsince := since_le_recent hend failures
        rw [run, List.countP_cons]
        by_cases hlimit : limit ≤ recent window now failures
        · rw [step_limited good hlimit] at htail ⊢
          simpa [failedWithin] using htail
        · rw [Nat.not_le] at hlimit
          cases good with
          | true =>
              rw [step_passed hlimit] at hhead
              exact absurd rfl hhead
          | false =>
              rw [step_failed hlimit, since_append, if_pos hnow] at htail
              rw [step_failed hlimit]
              simp only [failedWithin, hnow, hend, decide_true, Bool.and_self, if_true] at htail ⊢
              omega
      · have hlate : ∀ t ∈ ((now, good) :: attempts).map Prod.fst, start + window < t := by
          intro t ht
          rw [List.map_cons, List.mem_cons] at ht
          rw [not_le] at hend
          cases ht with
          | inl hsame => exact hsame ▸ hend
          | inr ht => exact hend.trans_le (hlater t ht)
        rw [failedWithin_late hlate]
        exact Nat.zero_le _

/-- In an interval as long as the window in which nothing passes, no more than `limit` attempts
fail. -/
theorem failedWithin_le [AddRightMono τ] {start : τ} {attempts : List (τ × Bool)}
    (hsorted : (attempts.map Prod.fst).Pairwise (· ≤ ·)) (failures : List τ)
    (hpassed : ∀ entry ∈ run limit window failures attempts,
      start ≤ entry.1 → entry.1 ≤ start + window → entry.2 ≠ .passed) :
    (run limit window failures attempts).countP (failedWithin start (start + window)) ≤ limit := by
  induction attempts generalizing failures with
  | nil => exact Nat.zero_le _
  | cons attempt attempts ih =>
      obtain ⟨now, good⟩ := attempt
      by_cases hnow : start ≤ now
      · have hstart : ∀ t ∈ ((now, good) :: attempts).map Prod.fst, start ≤ t := by
          intro t ht
          rw [List.map_cons, List.mem_cons] at ht
          cases ht with
          | inl hsame => exact hsame ▸ hnow
          | inr ht => exact hnow.trans ((List.pairwise_cons.mp hsorted).1 t ht)
        have hbound := failedWithin_le_sub hsorted hstart failures fun entry hentry =>
          hpassed entry hentry (hstart _ (mem_times hentry))
        exact hbound.trans (Nat.sub_le _ _)
      · have htail := ih (List.pairwise_cons.mp hsorted).2
          (step limit window failures now good).1
          fun entry hentry => hpassed entry (List.mem_cons_of_mem _ hentry)
        rw [run, List.countP_cons]
        simpa [failedWithin, hnow] using htail

/-! ### What a refusal is for -/

/-- An entry of a run that failed in the window behind a time. -/
def failedSince (window now : τ) (entry : τ × Verdict) : Bool :=
  decide (entry.2 = .failed) && decide (now ≤ entry.1 + window)

/-- What is not admitted has failures enough in the window behind it, made in the run or remembered
from before. -/
theorem limit_le_of_limited {failures : List τ} {attempts : List (τ × Bool)}
    {before after : List (τ × Verdict)} {now : τ}
    (h : run limit window failures attempts = before ++ (now, .limited) :: after) :
    limit ≤ recent window now failures + before.countP (failedSince window now) := by
  induction attempts generalizing failures before with
  | nil => exact absurd h.symm (List.append_ne_nil_of_right_ne_nil _ (List.cons_ne_nil _ _))
  | cons attempt attempts ih =>
      obtain ⟨time, good⟩ := attempt
      rw [run] at h
      cases before with
      | nil =>
          obtain ⟨hhead, -⟩ := List.cons.inj h
          obtain ⟨rfl, hverdict⟩ := Prod.mk.inj hhead
          by_contra hlimit
          rw [List.countP_nil, Nat.add_zero, Nat.not_le] at hlimit
          cases good with
          | true => rw [step_passed hlimit] at hverdict; cases hverdict
          | false => rw [step_failed hlimit] at hverdict; cases hverdict
      | cons entry before =>
          obtain ⟨rfl, hrest⟩ := List.cons.inj h
          have hstep := @recent_step_le τ _ _ limit window failures time good now
          have htail := ih hrest
          rw [List.countP_cons]
          simp only [failedSince, Bool.and_eq_true, decide_eq_true_eq] at htail hstep ⊢
          omega

end SlidingWindow
