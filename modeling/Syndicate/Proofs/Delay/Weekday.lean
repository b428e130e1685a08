import Syndicate.Proofs.Delay.Form
import Syndicate.Routing

/-! A weekday with a time of day as a delay: it lasts to the next moment at that time on that day,
which is found however close the present is to it. -/

namespace Syndicate

/-! ### Moments of a week -/

namespace Instant

variable {t now : Instant} {weekday hours minutes : Nat}

/-- An instant is on a weekday at a time of day, to the microsecond. -/
structure IsAt (t : Instant) (weekday hours minutes : Nat) : Prop where
  weekday : t.weekday = weekday
  hour : t.hour = hours
  minute : t.minute = minutes
  second : t.second = 0
  microsecond : t.microsecond = 0

theorem isAt_iff (hm : minutes ≤ 59) : t.IsAt weekday hours minutes ↔
    t.weekday = weekday ∧ t.micros % dayMicros = (hours * 60 + minutes) * 60000000 := by
  constructor
  · rintro ⟨hweekday, hhour, hminute, hsecond, hmicro⟩
    refine ⟨hweekday, ?_⟩
    unfold hour at hhour
    unfold minute at hminute
    unfold second at hsecond
    unfold microsecond at hmicro
    unfold dayMicros at hhour ⊢
    omega
  · rintro ⟨hweekday, htime⟩
    unfold dayMicros at htime
    refine ⟨hweekday, ?_, ?_, ?_, ?_⟩
    · unfold hour dayMicros
      omega
    · unfold minute
      omega
    · unfold second
      omega
    · unfold microsecond
      omega

/-- The earliest instant after another one that is on a weekday at a time of day. -/
structure IsNext (now : Instant) (weekday hours minutes : Nat) (t : Instant) : Prop where
  isAt : t.IsAt weekday hours minutes
  later : now.micros < t.micros
  first : ∀ u : Instant, u.IsAt weekday hours minutes → now.micros < u.micros →
    t.micros ≤ u.micros

end Instant

namespace Delay

variable {now t : Instant} {weekday h m n : Nat} {name : List Char}

/-- The moments on a weekday at a time of day are a week apart, and that of a delay is the first of
those from today on that has not come yet. -/
theorem moment_first (now : Instant) (hw : weekday < 7) (hh : h ≤ 23) (hm : m ≤ 59) :
    ∃ k, moment now weekday h m = k * dayMicros + (h * 60 + m) * 60000000 ∧
      k % 7 = weekday ∧ now.micros < moment now weekday h m ∧
      ∀ j, j % 7 = weekday → now.micros < j * dayMicros + (h * 60 + m) * 60000000 → k ≤ j := by
  unfold moment Instant.weekday Instant.dayNumber dayMicros
  dsimp only
  split
  · exact ⟨_, by rw [Nat.add_right_comm, ← Nat.add_mul], by omega, by omega, by omega⟩
  · exact ⟨_, rfl, by omega, by omega, by omega⟩

theorem moment_le_of_isAt (hw : weekday < 7) (hh : h ≤ 23) (hm : m ≤ 59)
    (hat : t.IsAt weekday h m) (hlater : now.micros < t.micros) :
    moment now weekday h m ≤ t.micros := by
  obtain ⟨k, hk, -, -, hfirst⟩ := moment_first now hw hh hm
  obtain ⟨hday, htime⟩ := (Instant.isAt_iff hm).1 hat
  have hplace : t.dayNumber * dayMicros + t.micros % dayMicros = t.micros :=
    Nat.div_add_mod' t.micros dayMicros
  rw [htime] at hplace
  rw [← hplace] at hlater ⊢
  rw [hk]
  exact Nat.add_le_add_right (Nat.mul_le_mul_right _ (hfirst t.dayNumber hday hlater)) _

theorem isNext_of_moment (hw : weekday < 7) (hh : h ≤ 23) (hm : m ≤ 59)
    (ht : t.micros = moment now weekday h m) : now.IsNext weekday h m t := by
  obtain ⟨k, hk, hday, hlater, -⟩ := moment_first now hw hh hm
  rw [← ht] at hk hlater
  refine ⟨(Instant.isAt_iff hm).2 ⟨?_, ?_⟩, hlater,
    fun u hu hnow => ht ▸ moment_le_of_isAt hw hh hm hu hnow⟩
  · unfold Instant.weekday Instant.dayNumber
    unfold dayMicros at hk ⊢
    omega
  · unfold dayMicros at hk ⊢
    omega

/-- There is a next moment unless the calendar ends before the one that a delay lasts to. -/
theorem exists_isNext (hw : weekday < 7) (hh : h ≤ 23) (hm : m ≤ 59) :
    (∃ t, now.IsNext weekday h m t) ↔ moment now weekday h m < Date.count * dayMicros := by
  constructor
  · rintro ⟨t, hnext⟩
    exact Nat.lt_of_le_of_lt (moment_le_of_isAt hw hh hm hnext.isAt hnext.later) t.lt_end
  · intro hend
    exact ⟨⟨_, hend⟩, isNext_of_moment hw hh hm rfl⟩

/-! ### In text -/

/-- A number below a hundred in two digits. -/
def twoDigits (n : Nat) : List Char := [Nat.digitChar (n / 10), Nat.digitChar (n % 10)]

/-- A time of day in text. -/
def clock (hours minutes : Nat) : List Char := twoDigits hours ++ ':' :: twoDigits minutes

theorem clock_clock (hh : h < 100) (hm : m < 100) : Clock (clock h m) h m := by
  have hall : ∀ n < 100, Text.digitsValue (twoDigits n) = n ∧
      (twoDigits n).all Text.isDigit = true := by decide
  obtain ⟨hhours, hhdigits⟩ := hall h hh
  obtain ⟨hminutes, hmdigits⟩ := hall m hm
  have hclock : Clock (clock h m) (Text.digitsValue (twoDigits h))
      (Text.digitsValue (twoDigits m)) :=
    .digits fun x hx => by
      rcases List.mem_append.1 (show x ∈ twoDigits h ++ twoDigits m from hx) with hx | hx
      · exact List.all_eq_true.1 hhdigits x hx
      · exact List.all_eq_true.1 hmdigits x hx
  rwa [hhours, hminutes] at hclock

/-- The letters of weekdays are plain ones. -/
theorem map_letter_of_weekday (hname : name.map Char.toLower ∈ weekdays) :
    name.map letter = name.map Char.toLower := by
  have hplain : ∀ w ∈ weekdays,
      (w.all fun c => c ∉ ['ſ', 'ı', 'İ'].map Char.toLower) = true := by decide
  refine List.map_congr_left fun c hc => letter_eq_toLower fun hlong => ?_
  have hfar := List.all_eq_true.1 (hplain _ hname) _ (List.mem_map_of_mem hc)
  exact of_decide_eq_true hfar (List.mem_map_of_mem hlong)

theorem weekdayNumber_eq_ok :
    weekdayNumber name = .ok weekday ↔ weekdays[weekday]? = some (name.map Char.toLower) := by
  constructor
  · intro hnumber
    unfold weekdayNumber at hnumber
    dsimp only at hnumber
    split at hnumber
    · rename_i hlt
      cases hnumber
      have hlt : weekdays.idxOf (name.map Char.toLower) < weekdays.length := hlt
      rw [List.getElem?_eq_getElem hlt, List.getElem_idxOf]
    · cases hnumber
  · intro hname
    obtain ⟨hw, hget⟩ := List.getElem?_eq_some_iff.1 hname
    have hindex : ∀ i : Fin 7, weekdays.idxOf weekdays[i] = i := by decide
    have hi := hindex ⟨weekday, hw⟩
    have hw : weekday < 7 := hw
    rw [weekdayNumber, ← hget]
    simp only [Fin.getElem_fin] at hi
    simp [hi, hw]

/-- A weekday and a time of day in text mean the moment that they name. -/
theorem parse_weekday_eq (hname : weekdays[weekday]? = some (name.map Char.toLower))
    (hh : h ≤ 23) (hm : m ≤ 59) :
    parse now (.text (String.ofList (name ++ ' ' :: clock h m))) = untilWeekday now weekday h m := by
  have hmem := List.mem_of_getElem? hname
  have hletters : name.map letter ∈ weekdays := by rwa [map_letter_of_weekday hmem]
  have hclock := clock_clock (h := h) (m := m) (by omega) (by omega)
  have hblank : Text.IsRow Text.isBlank [' '] := ⟨by decide, by simp only [List.mem_singleton, forall_eq]; decide⟩
  have hform : (Form.weekday name h m).Spells (name ++ ' ' :: clock h m) :=
    .weekday hletters hblank hclock
  have htime : isTimeOfDay h m = true := by simp [isTimeOfDay, hh, hm]
  rw [parse_spells (by rwa [String.toList_ofList, hform.trim_eq]),
    milliseconds_weekday (weekdayNumber_eq_ok.2 hname) htime]

/-- A delay until a weekday at a time of day is the milliseconds to the next such moment, rounded
up. So it is never nothing, and a whole week at such a moment itself. -/
theorem parse_weekday (hend : now.micros + 7 * dayMicros < Date.count * dayMicros)
    (hname : weekdays[weekday]? = some (name.map Char.toLower)) (hh : h ≤ 23) (hm : m ≤ 59) :
    ∃ t n, now.IsNext weekday h m t ∧
      parse now (.text (String.ofList (name ++ ' ' :: clock h m))) = .ok n ∧
      t.micros - now.micros ≤ n * 1000 ∧ n * 1000 < t.micros - now.micros + 1000 ∧
      0 < n ∧ n ≤ week ∧ (now.IsAt weekday h m → n = week) ∧
      ∀ task : Task, task.delay = n → task.isImmediate = false := by
  have hw : weekday < 7 := (List.getElem?_eq_some_iff.1 hname).1
  have htime : isTimeOfDay h m = true := by simp [isTimeOfDay, hh, hm]
  have hsoon := moment_le now weekday htime
  have hlt := Nat.lt_of_le_of_lt hsoon hend
  obtain ⟨t, ht⟩ : ∃ t : Instant, t.micros = moment now weekday h m := ⟨⟨_, hlt⟩, rfl⟩
  have hnext : now.IsNext weekday h m t := isNext_of_moment hw hh hm ht
  have hlater := hnext.later
  refine ⟨t, wait now weekday h m, hnext, ?_, ?_⟩
  · rw [parse_weekday_eq hname hh hm, untilWeekday_eq, if_pos hlt]
  · clear hend hlt
    rw [← ht] at hsoon
    unfold wait week day hour minute
    rw [← ht]
    unfold dayMicros at hsoon
    refine ⟨by omega, by omega, by omega, by omega, fun hat => ?_, fun task htask => ?_⟩
    · obtain ⟨hday, hclock⟩ := (Instant.isAt_iff hm).1 hat
      obtain ⟨hnextday, hnextclock⟩ := (Instant.isAt_iff hm).1 hnext.isAt
      unfold Instant.weekday Instant.dayNumber dayMicros at hday hnextday
      unfold dayMicros at hclock hnextclock
      omega
    · have hpos : task.delay ≠ 0 := by omega
      simp [Task.isImmediate, hpos]

/-- A Monday, a microsecond before ten. -/
def brink : Instant := ⟨736330 * dayMicros + 35999999999, by decide⟩

theorem parse_weekday_brink :
    (brink.micros + 7 * dayMicros < Date.count * dayMicros ∧
      weekdays[0]? = some (['M', 'o', 'N'].map Char.toLower) ∧ 10 ≤ 23 ∧ 0 ≤ 59) ∧
    ∃ t n, brink.IsNext 0 10 0 t ∧
      parse brink (.text (String.ofList (['M', 'o', 'N'] ++ ' ' :: clock 10 0))) = .ok n ∧
      t.micros - brink.micros ≤ n * 1000 ∧ n * 1000 < t.micros - brink.micros + 1000 ∧
      0 < n ∧ n ≤ week ∧ (brink.IsAt 0 10 0 → n = week) ∧
      ∀ task : Task, task.delay = n → task.isImmediate = false :=
  ⟨⟨by decide, by decide, by decide, by decide⟩,
    parse_weekday (by decide) (by decide) (by decide) (by decide)⟩

/-- The wait of that microsecond is a millisecond. -/
example : wait brink 0 10 0 = 1 := by decide

end Delay

end Syndicate
