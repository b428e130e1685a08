import Syndicate.Proofs.Delay.Weekday

/-! Which literals break the reading of a delay, so that it neither comes to a number of
milliseconds nor is refused: numbers without an integer part, values that cannot be shown when they
are refused, digits beyond the most that a number may have, the long forms of letters in the name of
a weekday, and moments past the end of the calendar. -/

namespace Syndicate.Delay

variable {now : Instant} {v : Value} {f : Form} {n : Nat}

/-- A form with too many digits breaks, and so does a weekday that is written with a long letter or
comes no more before the calendar ends; but if the time is none of a day, that is told first. -/
def Form.Escapes (now : Instant) : Form → Prop
  | .span ds _ => Text.maxDigits < ds.length
  | .daysAndTime ds h m => (h ≤ 23 ∧ m ≤ 59) ∧ Text.maxDigits < ds.length
  | .weekday name h m => (h ≤ 23 ∧ m ≤ 59) ∧ (name.map Char.toLower ∉ weekdays ∨
      ∃ weekday, weekdays[weekday]? = some (name.map Char.toLower) ∧
        ∀ t, ¬ now.IsNext weekday h m t)

/-- A literal breaks if it is no number or an infinite one, if it is refused and cannot be shown, or
if its form breaks. -/
inductive Escapes (now : Instant) : Value → Prop
  | nan (mark : Nat) : Escapes now (.float (.nan mark))
  | infinite : Escapes now (.float (.infinite false))
  | unshown {v : Value} (hrefused : ∀ i, v = .int i → i < 0) (h : v.isShowable = false) :
    Escapes now v
  | form {s : String} {f : Form} (hs : f.Spells (Text.trim s.toList)) (hf : f.Escapes now) :
    Escapes now (.text s)

theorem breaks_refuse : Breaks (refuse v) ↔ v.isShowable = false := breaks_failShowing

theorem breaks_count {ds : List Char} : Breaks (count ds) ↔ Text.maxDigits < ds.length := by
  unfold count
  split
  · simp [*]
  · simp only [breaks_faulty, true_iff]
    omega

theorem breaks_weekdayNumber {name : List Char} :
    Breaks (weekdayNumber name) ↔ name.map Char.toLower ∉ weekdays := by
  have hlength : weekdays.length = 7 := rfl
  unfold weekdayNumber
  dsimp only
  rw [← hlength]
  split
  · simp [List.idxOf_lt_length_iff.1 ‹_›]
  · simp [mt List.idxOf_lt_length_iff.2 ‹_›]

theorem breaks_untilWeekday {weekday h m : Nat} (hw : weekday < 7) (hh : h ≤ 23) (hm : m ≤ 59) :
    Breaks (untilWeekday now weekday h m) ↔ ∀ t, ¬ now.IsNext weekday h m t := by
  rw [← not_exists, exists_isNext hw hh hm, untilWeekday_eq]
  generalize Date.count * dayMicros = bound
  split <;> simp [*]

theorem isTimeOfDay_iff {h m : Nat} : isTimeOfDay h m = true ↔ h ≤ 23 ∧ m ≤ 59 := by
  simp [isTimeOfDay]

/-- What is done with a time of day breaks if the time is one of a day. -/
theorem breaks_timed {h m : Nat} {s : String} {x : Outcome Nat} :
    Breaks (if isTimeOfDay h m = true then x else refuse (.text s)) ↔
      (h ≤ 23 ∧ m ≤ 59) ∧ Breaks x := by
  rw [← isTimeOfDay_iff]
  split
  · simp [*]
  · simp [*, breaks_refuse, Value.isShowable]

theorem breaks_milliseconds {s : String} :
    Breaks (f.milliseconds now (.text s)) ↔ f.Escapes now := by
  cases f with
  | span ds u =>
    rw [Form.milliseconds, breaks_bind, breaks_count]
    simp [Form.Escapes]
  | daysAndTime ds h m =>
    rw [Form.milliseconds, breaks_timed, breaks_bind, breaks_count]
    simp [Form.Escapes]
  | weekday name h m =>
    rw [Form.milliseconds, breaks_timed, breaks_bind, breaks_weekdayNumber]
    refine and_congr_right fun htime => or_congr_right (exists_congr fun w => ?_)
    rw [weekdayNumber_eq_ok]
    refine and_congr_right fun hname => breaks_untilWeekday ?_ htime.1 htime.2
    exact (List.getElem?_eq_some_iff.1 hname).1

theorem breaks_parse_float {x : Binary64} (h : Breaks (parse now (.float x))) :
    Escapes now (.float x) := by
  rw [parse] at h
  split at h
  · cases breaks_refuse.1 h
  · rename_i hsign
    cases x with
    | nan mark => exact .nan mark
    | infinite negative =>
      cases negative with
      | false => exact .infinite
      | true => exact absurd rfl hsign
    | finite negative units => exact absurd h (not_breaks_pure _)

theorem breaks_parse_text {s : String} (h : Breaks (parse now (.text s))) :
    Escapes now (.text s) := by
  by_cases hf : ∃ f : Form, f.Spells (Text.trim s.toList)
  · obtain ⟨f, hf⟩ := hf
    rw [parse_spells hf] at h
    exact .form hf (breaks_milliseconds.1 h)
  · by_cases hzero : s = "0"
    · rw [parse, if_pos hzero] at h
      exact absurd h (not_breaks_ok 0)
    · rw [parse_formless hzero fun f h => hf ⟨f, h⟩] at h
      cases breaks_refuse.1 h

theorem breaks_parse : Breaks (parse now v) ↔ Escapes now v := by
  constructor
  · intro h
    cases v with
    | null => exact absurd h (not_breaks_ok 0)
    | int i =>
      rw [parse] at h
      split at h
      · rename_i hneg
        exact .unshown (by rintro j ⟨⟩; exact hneg) (breaks_refuse.1 h)
      · exact absurd h (not_breaks_ok _)
    | float x => exact breaks_parse_float h
    | text s => exact breaks_parse_text h
    | _ => exact .unshown (by rintro i ⟨⟩) (breaks_refuse.1 h)
  · rintro (mark | _ | ⟨hrefused, h⟩ | ⟨hs, hf⟩)
    · exact breaks_faulty _
    · exact breaks_faulty _
    · cases v with
      | int i =>
        rw [parse, if_pos (hrefused i rfl)]
        exact breaks_refuse.2 h
      | list | map => exact breaks_refuse.2 h
      | _ => cases h
    · rw [parse_spells hs]
      exact breaks_milliseconds.2 hf

/-- Every literal comes to a number of milliseconds, or is refused with an error that names it,
unless it breaks. -/
theorem parse_settles_iff (now : Instant) (v : Value) :
    ((∃ n, parse now v = .ok n) ∨ parse now v = fail (.invalidDelay v)) ↔ ¬ Escapes now v := by
  rw [← breaks_parse]
  constructor
  · rintro (⟨n, h⟩ | h)
    · rw [h]
      exact not_breaks_ok n
    · rw [h]
      exact not_breaks_fail _
  · intro h
    rcases hparse : parse now v with (e | f) | n
    · rw [parse_failsWith e hparse]
      exact .inr rfl
    · exact absurd ⟨f, hparse⟩ h
    · exact .inl ⟨n, rfl⟩

/-- With a long s a Saturday is no weekday, and is not refused either. -/
theorem not_settles_longLetter :
    ¬ ((∃ n, parse brink (.text "ſat 10:00") = .ok n) ∨
      parse brink (.text "ſat 10:00") = fail (.invalidDelay (.text "ſat 10:00"))) := by
  have hform : Form.ofChars? (Text.trim "ſat 10:00".toList) =
      some (.weekday ['ſ', 'a', 't'] 10 0) := by decide
  have hbreaks : Breaks (parse brink (.text "ſat 10:00")) := by
    rw [parse_spells (Form.ofChars?_eq_some.1 hform), breaks_milliseconds]
    exact ⟨by decide, .inl (by decide)⟩
  obtain ⟨f, hf⟩ := hbreaks
  rw [hf]
  nofun

end Syndicate.Delay
