import Mathlib.Data.ENat.Basic
import RestGateway.Race

/-!
# The race as it is polled

A task is polled at every moment until it is done. A request in flight polls its call first, then
the timer of its limit and then its cancellation. `Race.ends_task` shows that this ends as the race
of the three moments says.
-/

namespace RestGateway

/-- What polling gives at each moment, `none` before the task is done. -/
def Task (α : Type) := Nat → Option α

namespace Task

variable {α : Type}

/-- Done from a moment on; a moment that never comes leaves the task pending. -/
def alarm (moment : Option Duration) (x : α) : Task α := fun now =>
  match moment with
  | none => none
  | some d => if d.nanos ≤ now then some x else none

/-- Polls the second task only if the first one is not done. -/
def first (t u : Task α) : Task α := fun now => (t now).or (u now)

end Task

/-- How a task of endings ends, and when: at the first moment at which it is done, or never. -/
inductive Ends (t : Task Ending) : Ending → Option Duration → Prop
  | done {n : Nat} {e : Ending} (h : t n = some e) (hn : ∀ k < n, t k = none) : Ends t e (some ⟨n⟩)
  | never (h : ∀ n, t n = none) : Ends t .pending none

namespace Ends

variable {t : Task Ending} {e e' : Ending} {m m' : Option Duration}

/-- A task that has ended at a moment has not ended at a later one. -/
theorem not_lt {n n' : Nat} (h : t n = some e) (h' : ∀ k < n', t k = none) : ¬ n < n' := by
  intro hlt
  rw [h' n hlt] at h
  cases h

/-- A task ends in one way. -/
theorem unique (h : Ends t e m) (h' : Ends t e' m') : e = e' ∧ m = m' := by
  cases h with
  | never h =>
      cases h' with
      | never _ => exact ⟨rfl, rfl⟩
      | done h' _ => rw [h] at h'; cases h'
  | done h hn =>
      cases h' with
      | never h' => rw [h'] at h; cases h
      | done h' hn' =>
          have heq := Nat.le_antisymm (Nat.not_lt.mp (not_lt h' hn)) (Nat.not_lt.mp (not_lt h hn'))
          subst heq
          exact ⟨Option.some.inj (h.symm.trans h'), rfl⟩

end Ends

namespace Race

/-- A moment on the line of time; one that never comes lies at its end. -/
def time : Option Duration → ℕ∞
  | none => ⊤
  | some d => d.nanos

@[simp]
theorem time_none : time none = ⊤ := rfl

@[simp]
theorem time_some (d : Duration) : time (some d) = d.nanos := rfl

theorem time_eq_top_iff {m : Option Duration} : time m = ⊤ ↔ m = none := by
  cases m with
  | none => exact iff_of_true rfl rfl
  | some d => exact iff_of_false (ENat.natCast_ne_top _) (by simp)

theorem notAfter_iff {d : Duration} {m : Option Duration} :
    notAfter d m = true ↔ time (some d) ≤ time m := by
  cases m <;> simp [notAfter]

theorem inTime_iff {r : Race} {d : Duration} :
    r.inTime d = true ↔ time (some d) ≤ time r.deadline ∧ time (some d) ≤ time r.cancel := by
  simp [inTime, notAfter_iff]

theorem exists_eq_some_of_time_ne_top {m : Option Duration} (h : time m ≠ ⊤) :
    ∃ d, m = some d := by
  cases m with
  | none => exact absurd rfl h
  | some d => exact ⟨d, rfl⟩

/-- The answer comes, and neither of the other events before it. -/
def AnswersFirst (r : Race) : Prop :=
  time r.answer ≠ ⊤ ∧ time r.answer ≤ time r.deadline ∧ time r.answer ≤ time r.cancel

theorem answersFirst_iff {r : Race} :
    r.AnswersFirst ↔ ∃ a, r.answer = some a ∧ r.inTime a = true := by
  constructor
  · rintro ⟨ht, hin⟩
    obtain ⟨a, ha⟩ := exists_eq_some_of_time_ne_top ht
    rw [ha] at hin
    exact ⟨a, ha, inTime_iff.mpr hin⟩
  · rintro ⟨a, ha, hin⟩
    rw [AnswersFirst, ha]
    exact ⟨ENat.natCast_ne_top _, inTime_iff.mp hin⟩

/-- Nothing comes before an answer that needs no waiting. -/
theorem answersFirst_of_time_eq_zero {r : Race} (h : time r.answer = 0) : r.AnswersFirst := by
  rw [AnswersFirst, h]
  exact ⟨ENat.zero_ne_top, zero_le, zero_le⟩

theorem alarm_eq_none_iff {α : Type} {moment : Option Duration} {x : α} {n : Nat} :
    Task.alarm moment x n = none ↔ (n : ℕ∞) < time moment := by
  cases moment <;> simp [Task.alarm]

theorem alarm_self {α : Type} (d : Duration) (x : α) :
    Task.alarm (some d) x d.nanos = some x := by
  simp [Task.alarm]

theorem lt_time_some {d : Duration} {k : Nat} (h : k < d.nanos) : (k : ℕ∞) < time (some d) :=
  Nat.cast_lt.mpr h

/-- Without an answer in time, the earlier one of the deadline and the cancellation ends a request,
and the deadline if they come together. -/
theorem interruption_cases (r : Race) :
    (r.interruption = .expired ∧ time r.deadline ≠ ⊤ ∧ time r.deadline ≤ time r.cancel) ∨
      (r.interruption = .canceled ∧ time r.cancel < time r.deadline) ∨
      (r.interruption = .pending ∧ time r.deadline = ⊤ ∧ time r.cancel = ⊤) := by
  obtain ⟨answer, deadline, cancel⟩ := r
  cases deadline with
  | none =>
      cases cancel with
      | none => exact Or.inr (Or.inr ⟨rfl, rfl, rfl⟩)
      | some c => exact Or.inr (Or.inl ⟨rfl, ENat.natCast_lt_top _⟩)
  | some d =>
      by_cases h : notAfter d cancel = true
      · exact Or.inl ⟨if_pos h, ENat.natCast_ne_top _, notAfter_iff.mp h⟩
      · exact Or.inr (Or.inl ⟨if_neg h, not_le.mp fun hle => h (notAfter_iff.mpr hle)⟩)

/-- The event that comes first ends a request. Of events that come together it is the one that is
polled first. -/
theorem ending_cases (r : Race) :
    (r.ending = .answered ∧ r.AnswersFirst) ∨
      (r.ending = .expired ∧ time r.deadline < time r.answer ∧
        time r.deadline ≤ time r.cancel) ∨
      (r.ending = .canceled ∧ time r.cancel < time r.answer ∧ time r.cancel < time r.deadline) ∨
      (r.ending = .pending ∧ time r.answer = ⊤ ∧ time r.deadline = ⊤ ∧ time r.cancel = ⊤) := by
  by_cases h : r.AnswersFirst
  · obtain ⟨a, ha, hin⟩ := answersFirst_iff.mp h
    have hend : r.ending = .answered := by simp [ending, ha, hin]
    exact Or.inl ⟨hend, h⟩
  · have hend : r.ending = r.interruption := by
      unfold ending
      cases ha : r.answer with
      | none => rfl
      | some a => exact if_neg fun hin => h (answersFirst_iff.mpr ⟨a, ha, hin⟩)
    have hlate {m : ℕ∞} (hd : m ≤ time r.deadline) (hc : m ≤ time r.cancel) (hm : m ≠ ⊤) :
        m < time r.answer := by
      by_contra hle
      have ha := not_lt.mp hle
      exact h ⟨fun ht => hm (top_le_iff.mp (ht ▸ ha)), ha.trans hd, ha.trans hc⟩
    rw [hend]
    rcases r.interruption_cases with ⟨hi, hd, hc⟩ | ⟨hi, hd⟩ | ⟨hi, hd, hc⟩
    · exact Or.inr (Or.inl ⟨hi, hlate le_rfl hc hd, hc⟩)
    · exact Or.inr (Or.inr (Or.inl ⟨hi, hlate hd.le le_rfl hd.ne_top, hd⟩))
    · refine Or.inr (Or.inr (Or.inr ⟨hi, ?_, hd, hc⟩))
      by_contra ht
      exact h ⟨ht, hd ▸ le_top, hc ▸ le_top⟩

/-- A request is answered exactly if the answer comes, and neither of the others before it. -/
theorem ending_eq_answered_iff {r : Race} : r.ending = .answered ↔ r.AnswersFirst := by
  rcases r.ending_cases with ⟨he, h⟩ | ⟨he, ha, _⟩ | ⟨he, ha, _⟩ | ⟨he, ha, _⟩
  · exact iff_of_true he h
  · exact iff_of_false (by simp [he]) fun h => not_le.mpr ha h.2.1
  · exact iff_of_false (by simp [he]) fun h => not_le.mpr ha h.2.2
  · exact iff_of_false (by simp [he]) fun h => h.1 ha

/-- A request stays pending exactly if none of the three events ever comes. -/
theorem ending_eq_pending_iff {r : Race} :
    r.ending = .pending ↔
      time r.answer = ⊤ ∧ time r.deadline = ⊤ ∧ time r.cancel = ⊤ := by
  rcases r.ending_cases with ⟨he, h⟩ | ⟨he, ha, _⟩ | ⟨he, ha, _⟩ | ⟨he, h⟩
  · exact iff_of_false (by simp [he]) fun hp => h.1 hp.1
  · exact iff_of_false (by simp [he]) fun hp => ha.ne_top hp.2.1
  · exact iff_of_false (by simp [he]) fun hp => ha.ne_top hp.2.2
  · exact iff_of_true he h

/-- Where the answer and the deadline do not fall together, a request is answered exactly if the
answer needs no waiting, or comes before the deadline and not after the cancellation. -/
theorem ending_eq_answered_iff_of_ne {r : Race}
    (h : time r.answer = time r.deadline → time r.answer = ⊤) :
    r.ending = .answered ↔
      time r.answer = 0 ∨ time r.answer < time r.deadline ∧ time r.answer ≤ time r.cancel := by
  rw [ending_eq_answered_iff]
  constructor
  · rintro ⟨ht, hd, hc⟩
    exact Or.inr ⟨hd.lt_of_ne fun heq => ht (h heq), hc⟩
  · rintro (h0 | ⟨hd, hc⟩)
    · exact answersFirst_of_time_eq_zero h0
    · exact ⟨hd.ne_top, hd.le, hc⟩

/-- Of a deadline and a later cancellation, the deadline ends a request that is not answered. -/
theorem ending_eq_expired {r : Race} (hna : r.ending ≠ .answered)
    (h : time r.deadline < time r.cancel) : r.ending = .expired := by
  rcases r.ending_cases with ⟨he, _⟩ | ⟨he, _⟩ | ⟨_, _, hd⟩ | ⟨_, _, hd, _⟩
  · exact absurd he hna
  · exact he
  · exact absurd hd h.not_gt
  · exact absurd hd h.ne_top

/-- Of a cancellation and a later deadline, the cancellation ends a request that is not
answered. -/
theorem ending_eq_canceled {r : Race} (hna : r.ending ≠ .answered)
    (h : time r.cancel < time r.deadline) : r.ending = .canceled := by
  rcases r.ending_cases with ⟨he, _⟩ | ⟨_, _, hc⟩ | ⟨he, _⟩ | ⟨_, _, _, hc⟩
  · exact absurd he hna
  · exact absurd h hc.not_gt
  · exact he
  · exact absurd hc h.ne_top

/-- The three events as a request in flight looks at them: its call first, then the timer of its
limit, then its cancellation. -/
def task (r : Race) : Task Ending :=
  ((Task.alarm r.answer .answered).first (Task.alarm r.deadline .expired)).first
    (Task.alarm r.cancel .canceled)

theorem task_eq_none {r : Race} {n : Nat} (ha : n < time r.answer) (hd : n < time r.deadline)
    (hc : n < time r.cancel) : r.task n = none := by
  simp [task, Task.first, alarm_eq_none_iff.mpr ha, alarm_eq_none_iff.mpr hd,
    alarm_eq_none_iff.mpr hc]

/-- Polling ends a request in the way and at the moment that the race says. -/
theorem ends_task (r : Race) : Ends r.task r.ending r.moment? := by
  rcases r.ending_cases with ⟨he, ht, hd, hc⟩ | ⟨he, ha, hc⟩ | ⟨he, ha, hd⟩ | ⟨he, ha, hd, hc⟩
  · obtain ⟨a, heq⟩ := exists_eq_some_of_time_ne_top ht
    rw [moment?, he, heq]
    rw [heq] at hd hc
    refine Ends.done ?_ fun k hk => ?_
    · simp [task, Task.first, heq, alarm_self]
    · have hk' := lt_time_some hk
      exact task_eq_none (heq ▸ hk') (hk'.trans_le hd) (hk'.trans_le hc)
  · obtain ⟨d, heq⟩ := exists_eq_some_of_time_ne_top ha.ne_top
    rw [moment?, he, heq]
    rw [heq] at ha hc
    refine Ends.done ?_ fun k hk => ?_
    · have ha' := alarm_eq_none_iff (x := Ending.answered).mpr ha
      simp [task, Task.first, ha', heq, alarm_self]
    · have hk' := lt_time_some hk
      exact task_eq_none (hk'.trans ha) (heq ▸ hk') (hk'.trans_le hc)
  · obtain ⟨c, heq⟩ := exists_eq_some_of_time_ne_top ha.ne_top
    rw [moment?, he, heq]
    rw [heq] at ha hd
    refine Ends.done ?_ fun k hk => ?_
    · have ha' := alarm_eq_none_iff (x := Ending.answered).mpr ha
      have hd' := alarm_eq_none_iff (x := Ending.expired).mpr hd
      simp [task, Task.first, ha', hd', heq, alarm_self]
    · have hk' := lt_time_some hk
      exact task_eq_none (hk'.trans ha) (hk'.trans hd) (heq ▸ hk')
  · rw [moment?, he]
    refine Ends.never fun n => task_eq_none ?_ ?_ ?_
    · rw [ha]; exact ENat.natCast_lt_top n
    · rw [hd]; exact ENat.natCast_lt_top n
    · rw [hc]; exact ENat.natCast_lt_top n

end Race

end RestGateway
