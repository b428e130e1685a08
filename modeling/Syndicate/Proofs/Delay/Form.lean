import Syndicate.Proofs.Delay
import Syndicate.Proofs.Text

/-! The shapes that a delay in text can have, and that reading one finds exactly the shape it has:
digits with a unit, digits with a time of day, or a weekday with a time of day. Digits may be those
of any script, and blanks those of Unicode. -/

namespace Syndicate

namespace Text

/-- A row of characters of a kind that is not empty. -/
def IsRow (kind : Char → Bool) (cs : List Char) : Prop := cs ≠ [] ∧ ∀ c ∈ cs, kind c = true

theorem isRow_takeWhile {kind : Char → Bool} {cs : List Char} (h : cs.takeWhile kind ≠ []) :
    IsRow kind (cs.takeWhile kind) :=
  ⟨h, fun _ hc => List.mem_takeWhile_imp hc⟩

end Text

namespace Delay

open Text (IsRow)

variable {cs : List Char} {h m : Nat} {f : Form}

/-! ### Times of day -/

/-- Two digits for the hours, a colon, and two digits for the minutes. -/
inductive Clock : List Char → Nat → Nat → Prop
  | digits {a b c d : Char} (hdigits : ∀ x ∈ [a, b, c, d], Text.isDigit x = true) :
    Clock [a, b, ':', c, d] (Text.digitsValue [a, b]) (Text.digitsValue [c, d])

theorem time?_eq_some : time? cs = some (h, m) ↔ Clock cs h m := by
  constructor
  · intro htime
    unfold time? at htime
    split at htime
    · split at htime
      · rename_i hdigits
        cases htime
        exact .digits (List.all_eq_true.1 hdigits)
      · cases htime
    · cases htime
  · rintro ⟨hdigits⟩
    rw [time?, if_pos (List.all_eq_true.2 hdigits)]

theorem Clock.head (hc : Clock cs h m) : ∀ c ∈ cs.head?, Text.isBlank c = false := by
  obtain ⟨hdigits⟩ := hc
  rintro c ⟨⟩
  exact Text.isBlank_of_isDigit (hdigits _ List.mem_cons_self)

theorem blankTime?_eq_some : blankTime? cs = some (h, m) ↔
    ∃ blanks time, IsRow Text.isBlank blanks ∧ Clock time h m ∧ cs = blanks ++ time := by
  constructor
  · intro htime
    cases cs with
    | nil => cases htime
    | cons c rest =>
      simp only [blankTime?] at htime
      split at htime
      · rename_i hblank
        refine ⟨c :: rest.takeWhile Text.isBlank, rest.dropWhile Text.isBlank, ⟨nofun, ?_⟩,
          time?_eq_some.1 htime, ?_⟩
        · exact List.forall_mem_cons.2 ⟨hblank, fun _ hc => List.mem_takeWhile_imp hc⟩
        · rw [List.cons_append, List.takeWhile_append_dropWhile]
      · cases htime
  · rintro ⟨blanks, time, ⟨hne, hblanks⟩, hclock, rfl⟩
    cases blanks with
    | nil => exact absurd rfl hne
    | cons c blanks =>
      obtain ⟨hblank, hblanks⟩ := List.forall_mem_cons.1 hblanks
      rw [List.cons_append, blankTime?, if_pos hblank,
        (Text.takeWhile_row hblanks hclock.head).2, time?_eq_some.2 hclock]

/-! ### Forms -/

/-- How a form is written. -/
inductive Form.Spells : Form → List Char → Prop
  | span {ds : List Char} {u : Char} {unit : Nat} (hdigits : IsRow Text.isDigit ds)
    (hunit : unit? u = some unit) : Spells (.span ds unit) (ds ++ [u])
  | daysAndTime {ds blanks time : List Char} {h m : Nat} (hdigits : IsRow Text.isDigit ds)
    (hblanks : IsRow Text.isBlank blanks) (htime : Clock time h m) :
    Spells (.daysAndTime ds h m) (ds ++ 'd' :: (blanks ++ time))
  | weekday {name blanks time : List Char} {h m : Nat} (hname : name.map letter ∈ weekdays)
    (hblanks : IsRow Text.isBlank blanks) (htime : Clock time h m) :
    Spells (.weekday name h m) (name ++ (blanks ++ time))

/-- But for the long ones, letters are read in lower case. -/
theorem letter_eq_toLower {c : Char} (hc : c ∉ ['ſ', 'ı', 'İ']) : letter c = c.toLower := by
  simp only [List.mem_cons, List.not_mem_nil, or_false, not_or] at hc
  obtain ⟨hs, hi, hI⟩ := hc
  simp [letter, hs, hi, hI]

/-- A digit is no letter of a weekday, and is read as itself. -/
theorem letter_of_isDigit {c : Char} (hc : Text.isDigit c = true) : letter c = c := by
  have hrange := Text.isDigit_range hc
  rw [letter_eq_toLower]
  · refine dif_neg ?_
    rintro ⟨hlow, hhigh⟩
    have hlow : 65 ≤ c.toNat := hlow
    have hhigh : c.toNat ≤ 90 := hhigh
    omega
  · intro hlong
    have hnone : (['ſ', 'ı', 'İ'].all fun x => !Text.isDigit x) = true := by decide
    simpa [hc] using List.all_eq_true.1 hnone c hlong

/-- The name of a weekday has three characters, the first of which is no digit. -/
theorem exists_of_weekday {name : List Char} (hname : name.map letter ∈ weekdays) :
    ∃ a b c, name = [a, b, c] ∧ Text.isDigit a = false := by
  have hall : ∀ w ∈ weekdays, w.length = 3 ∧ (w.head?.any Text.isDigit) = false := by decide
  obtain ⟨hlength, hhead⟩ := hall _ hname
  rw [List.length_map] at hlength
  obtain ⟨a, b, c, rfl⟩ := List.length_eq_three.1 hlength
  refine ⟨a, b, c, rfl, ?_⟩
  by_contra hdigit
  rw [Bool.not_eq_false] at hdigit
  rw [List.map_cons, letter_of_isDigit hdigit, List.head?_cons, Option.any_some, hdigit] at hhead
  cases hhead

theorem weekdayForm?_eq_some : weekdayForm? cs = some f ↔ ∃ name blanks time h m,
    name.map letter ∈ weekdays ∧ IsRow Text.isBlank blanks ∧ Clock time h m ∧
      f = .weekday name h m ∧ cs = name ++ (blanks ++ time) := by
  constructor
  · intro hf
    unfold weekdayForm? at hf
    split at hf
    · rename_i hname
      obtain ⟨⟨h, m⟩, htime, rfl⟩ := Option.map_eq_some_iff.1 hf
      obtain ⟨blanks, time, hblanks, hclock, hdrop⟩ := blankTime?_eq_some.1 htime
      refine ⟨cs.take 3, blanks, time, h, m, List.contains_iff_mem.1 hname, hblanks, hclock, rfl, ?_⟩
      rw [← hdrop, List.take_append_drop]
    · cases hf
  · rintro ⟨name, blanks, time, h, m, hname, hblanks, hclock, rfl, rfl⟩
    obtain ⟨a, b, c, rfl, -⟩ := exists_of_weekday hname
    rw [weekdayForm?]
    simp only [List.cons_append, List.nil_append, List.take_succ_cons, List.take_zero,
      List.drop_succ_cons, List.drop_zero]
    rw [if_pos (List.contains_iff_mem.2 hname),
      blankTime?_eq_some.2 ⟨blanks, time, hblanks, hclock, rfl⟩]
    rfl

/-- What the digits at the front of a text are taken for. -/
def afterDigits? (ds : List Char) : List Char → Option Form
  | [u] => (unit? u).map (.span ds)
  | 'd' :: rest => (blankTime? rest).map fun (h, m) => .daysAndTime ds h m
  | _ => none

theorem ofChars?_digits {ds rest : List Char} (hds : IsRow Text.isDigit ds)
    (hrest : ∀ c ∈ rest.head?, Text.isDigit c = false) :
    Form.ofChars? (ds ++ rest) = afterDigits? ds rest := by
  obtain ⟨htake, hdrop⟩ := Text.takeWhile_row hds.2 hrest
  rw [Form.ofChars?, htake, hdrop]
  exact if_neg hds.1

theorem ofChars?_letters (hcs : ∀ c ∈ cs.head?, Text.isDigit c = false) :
    Form.ofChars? cs = weekdayForm? cs := by
  rw [Form.ofChars?, (Text.takeWhile_none hcs).1]
  exact if_pos rfl

theorem of_unit? {u : Char} {unit : Nat} (hu : unit? u = some unit) :
    (u = 'm' ∧ unit = minute) ∨ (u = 'h' ∧ unit = hour) ∨ (u = 'd' ∧ unit = day) := by
  unfold unit? at hu
  split at hu <;> cases hu <;> simp

theorem isDigit_of_unit? {u : Char} {unit : Nat} (hu : unit? u = some unit) :
    Text.isDigit u = false := by
  obtain ⟨rfl, -⟩ | ⟨rfl, -⟩ | ⟨rfl, -⟩ := of_unit? hu <;> decide

theorem isBlank_of_unit? {u : Char} {unit : Nat} (hu : unit? u = some unit) :
    Text.isBlank u = false := by
  obtain ⟨rfl, -⟩ | ⟨rfl, -⟩ | ⟨rfl, -⟩ := of_unit? hu <;> decide

theorem afterDigits?_eq_some {ds rest : List Char} : afterDigits? ds rest = some f ↔
    (∃ u unit, unit? u = some unit ∧ f = .span ds unit ∧ rest = [u]) ∨
    ∃ blanks time h m, IsRow Text.isBlank blanks ∧ Clock time h m ∧ f = .daysAndTime ds h m ∧
      rest = 'd' :: (blanks ++ time) := by
  constructor
  · intro hf
    unfold afterDigits? at hf
    split at hf
    · rename_i u
      obtain ⟨unit, hunit, rfl⟩ := Option.map_eq_some_iff.1 hf
      exact .inl ⟨u, unit, hunit, rfl, rfl⟩
    · obtain ⟨⟨h, m⟩, htime, rfl⟩ := Option.map_eq_some_iff.1 hf
      obtain ⟨blanks, time, hblanks, hclock, rfl⟩ := blankTime?_eq_some.1 htime
      exact .inr ⟨blanks, time, h, m, hblanks, hclock, rfl, rfl⟩
    · cases hf
  · rintro (⟨u, unit, hunit, rfl, rfl⟩ | ⟨blanks, time, h, m, hblanks, hclock, rfl, rfl⟩)
    · rw [afterDigits?, hunit]
      rfl
    · have htime := blankTime?_eq_some.2 ⟨blanks, time, hblanks, hclock, rfl⟩
      have hne : blanks ++ time ≠ [] := by simp [hblanks.1]
      rw [afterDigits?, htime]
      · rfl
      · simpa using hne

/-- Reading a text finds its form, and only texts that have one. -/
theorem Form.ofChars?_eq_some : Form.ofChars? cs = some f ↔ f.Spells cs := by
  constructor
  · intro hf
    have hsplit := List.takeWhile_append_dropWhile (p := Text.isDigit) (l := cs)
    have hrest : ∀ c ∈ (cs.dropWhile Text.isDigit).head?, Text.isDigit c = false := fun c hc => by
      simpa [Option.mem_def.1 hc] using List.head?_dropWhile_not Text.isDigit cs
    by_cases hds : cs.takeWhile Text.isDigit = []
    · rw [hds, List.nil_append] at hsplit
      rw [hsplit] at hrest
      rw [ofChars?_letters hrest] at hf
      obtain ⟨name, blanks, time, h, m, hname, hblanks, hclock, rfl, rfl⟩ :=
        weekdayForm?_eq_some.1 hf
      exact .weekday hname hblanks hclock
    · have hrow := Text.isRow_takeWhile hds
      rw [← hsplit, ofChars?_digits hrow hrest] at hf
      rw [← hsplit]
      obtain ⟨u, unit, hunit, rfl, hu⟩ | ⟨blanks, time, h, m, hblanks, hclock, rfl, hd⟩ :=
        afterDigits?_eq_some.1 hf
      · rw [hu]
        exact .span hrow hunit
      · rw [hd]
        exact .daysAndTime hrow hblanks hclock
  · rintro (⟨hdigits, hunit⟩ | ⟨hdigits, hblanks, hclock⟩ | ⟨hname, hblanks, hclock⟩)
    · rw [ofChars?_digits hdigits (by rintro c ⟨⟩; exact isDigit_of_unit? hunit)]
      exact afterDigits?_eq_some.2 (.inl ⟨_, _, hunit, rfl, rfl⟩)
    · rw [ofChars?_digits hdigits (by rintro c ⟨⟩; decide)]
      exact afterDigits?_eq_some.2 (.inr ⟨_, _, _, _, hblanks, hclock, rfl, rfl⟩)
    · have hhead := exists_of_weekday hname
      rw [ofChars?_letters]
      · exact weekdayForm?_eq_some.2 ⟨_, _, _, _, _, hname, hblanks, hclock, rfl, rfl⟩
      · obtain ⟨a, b, c, rfl, ha⟩ := hhead
        rintro x ⟨⟩
        exact ha

/-! ### Literals -/

theorem Clock.last (hc : Clock cs h m) : ∀ c ∈ cs.getLast?, Text.isBlank c = false := by
  obtain ⟨hdigits⟩ := hc
  rintro c ⟨⟩
  exact Text.isBlank_of_isDigit (hdigits _ (by simp))

theorem getLast?_of_clock {front blanks time : List Char} (hc : Clock time h m) :
    ∀ c ∈ (front ++ (blanks ++ time)).getLast?, Text.isBlank c = false := by
  have hne : time ≠ [] := by
    obtain ⟨⟩ := hc
    exact List.cons_ne_nil _ _
  rw [← List.append_assoc, List.getLast?_append_of_ne_nil _ hne]
  exact hc.last

theorem isBlank_of_weekday {name rest : List Char} (hname : name.map letter ∈ weekdays) :
    ∀ c ∈ (name ++ rest).head?, Text.isBlank c = false := by
  obtain ⟨a, b, c, rfl, -⟩ := exists_of_weekday hname
  rintro x ⟨⟩
  by_contra hblank
  rw [Bool.not_eq_false] at hblank
  have hnone : ∀ n ∈ Text.blanks, ∀ w ∈ weekdays, w.head? ≠ some (letter (Char.ofNat n)) := by
    decide
  exact hnone a.toNat (List.contains_iff_mem.1 hblank) _ hname (by rw [Char.ofNat_toNat]; rfl)

/-- A spelled form has no blanks around it. -/
theorem Form.Spells.trim_eq (hf : f.Spells cs) : Text.trim cs = cs := by
  have hdigits : ∀ {ds rest : List Char}, IsRow Text.isDigit ds →
      ∀ c ∈ (ds ++ rest).head?, Text.isBlank c = false := by
    rintro (_ | ⟨d, ds⟩) rest hds c hc
    · exact absurd rfl hds.1
    · obtain rfl : d = c := Option.some.inj hc
      exact Text.isBlank_of_isDigit (hds.2 d List.mem_cons_self)
  obtain ⟨hds, hunit⟩ | ⟨hds, hblanks, hclock⟩ | ⟨hname, hblanks, hclock⟩ := hf
  · refine Text.trimOf_eq_self (hdigits hds) ?_
    rw [List.getLast?_append_of_ne_nil _ (List.cons_ne_nil _ _)]
    rintro u ⟨⟩
    exact isBlank_of_unit? hunit
  · refine Text.trimOf_eq_self (hdigits hds) ?_
    rw [← List.singleton_append, ← List.append_assoc]
    exact getLast?_of_clock hclock
  · exact Text.trimOf_eq_self (isBlank_of_weekday hname) (getLast?_of_clock hclock)

/-- A text with a form means what the form does. -/
theorem parse_spells {s : String} (hf : f.Spells (Text.trim s.toList)) (now : Instant) :
    parse now (.text s) = f.milliseconds now (.text s) := by
  have hform := Form.ofChars?_eq_some.2 hf
  have hzero : s ≠ "0" := by
    rintro rfl
    have hnone : Form.ofChars? (Text.trim "0".toList) = none := by decide
    rw [hnone] at hform
    cases hform
  simp only [parse, hzero, ↓reduceIte, hform]

/-- A text without a form is refused, zero apart. -/
theorem parse_formless {s : String} (hzero : s ≠ "0") (hf : ∀ f, ¬ Form.Spells f (Text.trim s.toList))
    (now : Instant) : parse now (.text s) = refuse (.text s) := by
  have hform : Form.ofChars? (Text.trim s.toList) = none :=
    Option.eq_none_iff_forall_ne_some.2 fun f h => hf f (Form.ofChars?_eq_some.1 h)
  simp only [parse, hzero, ↓reduceIte, hform]

end Delay

end Syndicate
