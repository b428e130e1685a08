import Syndicate.Delay
import Syndicate.Proofs.Act
import Syndicate.Proofs.Failure

/-! Reading delays: the one error it fails with, and that what is a delay at one instant is one at every
other. Only the end of the calendar can be in the way, of the next moment with a weekday and a time
of day. -/

namespace Syndicate

/-- A moment is in the calendar or behind its end. -/
theorem Instant.ofMicros?_cases (n : Nat) :
    (∃ t, ofMicros? n = some t ∧ t.micros = n ∧ n < Date.count * dayMicros) ∨
    (ofMicros? n = none ∧ ¬ n < Date.count * dayMicros) := by
  unfold ofMicros?
  by_cases h : n < Date.count * dayMicros
  · exact .inl ⟨⟨n, h⟩, dif_pos h, rfl, h⟩
  · exact .inr ⟨dif_neg h, h⟩

namespace Delay

variable {now loaded : Instant} {v : Value} {n : Nat}

/-! ### Weekdays -/

/-- The moment that a weekday and a time of day stand for, whether the calendar has it or not. -/
def moment (now : Instant) (weekday hours minutes : Nat) : Nat :=
  let first := (now.dayNumber + (weekday + 7 - now.weekday) % 7) * dayMicros +
    (hours * 60 + minutes) * 60000000
  if first ≤ now.micros then first + 7 * dayMicros else first

/-- The milliseconds until that moment, rounded up. -/
def wait (now : Instant) (weekday hours minutes : Nat) : Nat :=
  (moment now weekday hours minutes - now.micros + 999) / 1000

theorem untilWeekday_eq (now : Instant) (weekday hours minutes : Nat) :
    untilWeekday now weekday hours minutes =
      if moment now weekday hours minutes < Date.count * dayMicros
      then .ok (wait now weekday hours minutes) else faulty .overflow := by
  have hcases := Instant.ofMicros?_cases (moment now weekday hours minutes)
  -- The bound on instants stays behind a name, as does the definition when it is opened: comparing
  -- two forms of a moment would otherwise count up to that bound.
  generalize Date.count * dayMicros = bound at hcases ⊢
  obtain ⟨until_, huntil⟩ : ∃ until_, until_ = untilWeekday := ⟨_, rfl⟩
  rw [← huntil]
  unfold untilWeekday at huntil
  generalize Instant.ofMicros? = instant at hcases huntil
  subst huntil
  unfold wait
  unfold moment at hcases ⊢
  dsimp only at hcases ⊢
  obtain ⟨t, hin, hmicros, hlt⟩ | ⟨hnone, hend⟩ := hcases
  · rw [hin, if_pos hlt, ← hmicros]
  · rw [hnone, if_neg hend]

theorem moment_le (now : Instant) (weekday : Nat) {hours minutes : Nat}
    (ht : isTimeOfDay hours minutes = true) :
    moment now weekday hours minutes ≤ now.micros + 7 * dayMicros := by
  have hday : now.dayNumber * dayMicros ≤ now.micros := Nat.div_mul_le_self ..
  have hahead : (weekday + 7 - now.weekday) % 7 * dayMicros ≤ 6 * dayMicros :=
    Nat.mul_le_mul_right _ (Nat.le_of_lt_succ (Nat.mod_lt _ (by decide)))
  have htime : (hours * 60 + minutes) * 60000000 < dayMicros := by
    simp only [isTimeOfDay, Bool.and_eq_true, decide_eq_true_eq] at ht
    unfold dayMicros
    omega
  unfold moment
  dsimp only
  rw [Nat.add_mul]
  split <;> omega

/-- The next such moment is there unless the calendar ends within a week. -/
theorem untilWeekday_cases (now : Instant) (weekday : Nat) {hours minutes : Nat}
    (ht : isTimeOfDay hours minutes = true) :
    untilWeekday now weekday hours minutes = .ok (wait now weekday hours minutes) ∨
      (untilWeekday now weekday hours minutes = faulty .overflow ∧
        Date.count * dayMicros ≤ now.micros + 7 * dayMicros) := by
  have hsoon := moment_le now weekday ht
  rw [untilWeekday_eq]
  generalize Date.count * dayMicros = bound
  split
  · exact .inl rfl
  · exact .inr ⟨rfl, Nat.le_trans (Nat.le_of_not_lt ‹_›) hsoon⟩

theorem milliseconds_weekday {name : List Char} {weekday hours minutes : Nat}
    (hname : weekdayNumber name = .ok weekday) (ht : isTimeOfDay hours minutes = true) :
    (Form.weekday name hours minutes).milliseconds now v =
      untilWeekday now weekday hours minutes := by
  have hbind : ∀ until_ : Nat → Outcome Nat, (Except.ok weekday >>= until_) = until_ weekday :=
    fun _ => rfl
  rw [Form.milliseconds, if_pos ht, hname, hbind]

/-! ### Failures -/

theorem refuse_failsWith : FailsWith (· = .invalidDelay v) (refuse v) := .failShowing rfl

theorem not_refuse_ok : refuse v ≠ .ok n := by
  unfold refuse failShowing
  split <;> rintro ⟨⟩

theorem count_uses (ds : List Char) : Uses (count ds) := by
  unfold count
  split
  · exact .ok _
  · exact .faulty _

theorem weekdayNumber_uses (name : List Char) : Uses (weekdayNumber name) := by
  unfold weekdayNumber
  dsimp only
  split
  · exact .ok _
  · exact .faulty _

theorem untilWeekday_uses (weekday hours minutes : Nat) :
    Uses (untilWeekday now weekday hours minutes) := by
  rw [untilWeekday_eq]
  generalize Date.count * dayMicros = bound
  split
  · exact .ok _
  · exact .faulty _

theorem milliseconds_failsWith (f : Form) :
    FailsWith (· = .invalidDelay v) (f.milliseconds now v) := by
  cases f with
  | span ds u => exact .bind (count_uses ds).failsWith fun _ => .pure _
  | daysAndTime ds h m =>
    rw [Form.milliseconds]
    split
    · exact .bind (count_uses ds).failsWith fun _ => .pure _
    · exact refuse_failsWith
  | weekday name h m =>
    rw [Form.milliseconds]
    split
    · exact .bind (weekdayNumber_uses name).failsWith fun _ => (untilWeekday_uses _ _ _).failsWith
    · exact refuse_failsWith

/-- Reading a delay fails with one error of the domain only, which names the literal. -/
theorem parse_failsWith : FailsWith (· = .invalidDelay v) (parse now v) := by
  unfold parse
  split
  · exact .ok _
  · split
    · exact refuse_failsWith
    · exact .ok _
  · split
    · exact refuse_failsWith
    · exact .bind Value.toInt_uses.failsWith fun _ => .pure _
  · split
    · exact .ok _
    · split
      · exact milliseconds_failsWith _
      · exact refuse_failsWith
  · exact refuse_failsWith

/-! ### Another time -/

/-- The calendar ends within a week, before the moment that a literal stands for. -/
def Outlasts (now : Instant) (v : Value) : Prop :=
  parse now v = faulty .overflow ∧ Date.count * dayMicros ≤ now.micros + 7 * dayMicros

theorem milliseconds_elsewhere {f : Form} (h : f.milliseconds loaded v = .ok n) (now : Instant) :
    (∃ m, f.milliseconds now v = .ok m) ∨ (f.milliseconds now v = faulty .overflow ∧
      Date.count * dayMicros ≤ now.micros + 7 * dayMicros) := by
  cases f with
  | span ds u => exact .inl ⟨n, h⟩
  | daysAndTime ds hours minutes => exact .inl ⟨n, h⟩
  | weekday name hours minutes =>
    rw [Form.milliseconds] at h
    split at h
    · rename_i ht
      obtain ⟨weekday, hname, -⟩ := ok_of_bind h
      rw [milliseconds_weekday hname ht]
      exact (untilWeekday_cases now weekday ht).imp_left fun h => ⟨_, h⟩
    · exact absurd h not_refuse_ok

/-- What is a delay at one instant is one at every other, but for moments past the calendar's
end. -/
theorem parse_elsewhere (h : parse loaded v = .ok n) (now : Instant) :
    (∃ m, parse now v = .ok m) ∨ Outlasts now v := by
  cases v with
  | text s =>
    unfold Outlasts
    by_cases hzero : s = "0"
    · exact .inl ⟨0, by simp [parse, hzero]⟩
    · simp only [parse, hzero, ↓reduceIte] at h ⊢
      cases hf : Form.ofChars? (Text.trim s.toList) with
      | none =>
        rw [hf] at h
        exact absurd h not_refuse_ok
      | some f =>
        rw [hf] at h
        exact milliseconds_elsewhere h now
  | _ => exact .inl ⟨n, h⟩

end Delay

end Syndicate
