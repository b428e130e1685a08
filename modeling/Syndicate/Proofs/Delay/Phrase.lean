import Syndicate.Proofs.Delay.Weekday

/-! Delays in plain text. Of the texts in ASCII with no blanks around them, those that mean a delay
are the phrases of a small grammar. Each such text is one phrase only, and all but those with a
weekday mean the same at every time. -/

namespace Syndicate

namespace Delay

open Text (IsRow)

/-! ### Phrases -/

/-- A measure of time that delays are counted in. -/
inductive Measure where
  | minutes
  | hours
  | days
  deriving DecidableEq

def Measure.letter : Measure → Char
  | minutes => 'm'
  | hours => 'h'
  | days => 'd'

def Measure.milliseconds : Measure → Nat
  | minutes => minute
  | hours => hour
  | days => day

theorem unit?_eq_some {u : Char} {unit : Nat} :
    unit? u = some unit ↔ ∃ k : Measure, k.letter = u ∧ k.milliseconds = unit := by
  constructor
  · intro hu
    obtain ⟨rfl, rfl⟩ | ⟨rfl, rfl⟩ | ⟨rfl, rfl⟩ := of_unit? hu
    · exact ⟨.minutes, rfl, rfl⟩
    · exact ⟨.hours, rfl, rfl⟩
    · exact ⟨.days, rfl, rfl⟩
  · rintro ⟨k, rfl, rfl⟩
    cases k <;> rfl

/-- A delay in plain text, with its digits, its blanks and the case of its letters as written. -/
inductive Phrase where
  | atOnce
  | span (digits : List Char) (measure : Measure)
  | daysAndTime (digits blanks : List Char) (hours minutes : Nat)
  | weekday (day : Nat) (name blanks : List Char) (hours minutes : Nat)
  deriving DecidableEq

namespace Phrase

def text : Phrase → List Char
  | atOnce => ['0']
  | span ds k => ds ++ [k.letter]
  | daysAndTime ds bs h m => ds ++ 'd' :: (bs ++ clock h m)
  | weekday _ name bs h m => name ++ (bs ++ clock h m)

def IsValid : Phrase → Prop
  | atOnce => True
  | span ds _ => IsRow Char.isDigit ds
  | daysAndTime ds bs h m => IsRow Char.isDigit ds ∧ IsRow Text.isBlank bs ∧ h ≤ 23 ∧ m ≤ 59
  | weekday w name bs h m => weekdays[w]? = some (name.map Char.toLower) ∧ IsRow Text.isBlank bs ∧
      h ≤ 23 ∧ m ≤ 59

/-- Whether a phrase names a day, so that its length depends on the present. -/
def IsDated : Phrase → Prop
  | weekday .. => True
  | _ => False

def milliseconds (now : Instant) : Phrase → Nat
  | atOnce => 0
  | span ds k => Nat.ofDigitChars 10 ds 0 * k.milliseconds
  | daysAndTime ds _ h m => Nat.ofDigitChars 10 ds 0 * day + h * hour + m * minute
  | weekday w _ _ h m => wait now w h m

/-- What a phrase is read as; zero has no form. -/
def form? : Phrase → Option Form
  | atOnce => none
  | span ds k => some (.span ds k.milliseconds)
  | daysAndTime ds _ h m => some (.daysAndTime ds h m)
  | weekday _ name _ h m => some (.weekday name h m)

variable {p q : Phrase} {f : Form} {now : Instant} {v : Value}

theorem isDigit_of_char (ds : List Char) (h : IsRow Char.isDigit ds) : IsRow Text.isDigit ds :=
  ⟨h.1, fun c hc => by rw [Text.isDigit, Text.digit?_of_plain (h.2 c hc)]; rfl⟩

theorem spells (hp : p.IsValid) (hf : p.form? = some f) : f.Spells p.text := by
  cases p with
  | atOnce => cases hf
  | span ds k =>
    cases hf
    exact .span (isDigit_of_char ds hp) (unit?_eq_some.2 ⟨k, rfl, rfl⟩)
  | daysAndTime ds bs h m =>
    cases hf
    obtain ⟨hds, hbs, hh, hm⟩ := hp
    exact .daysAndTime (isDigit_of_char ds hds) hbs (clock_clock (by omega) (by omega))
  | weekday w name bs h m =>
    cases hf
    obtain ⟨hname, hbs, hh, hm⟩ := hp
    have hmem := List.mem_of_getElem? hname
    refine .weekday ?_ hbs (clock_clock (by omega) (by omega))
    rwa [map_letter_of_weekday hmem]

theorem clock_of_plain {time : List Char} {h m : Nat} (hc : Clock time h m)
    (hplain : ∀ c ∈ time, c.toNat < 128) : time = clock h m := by
  obtain ⟨hdigits⟩ := hc
  rename_i a b c d
  have hnumber : ∀ x ∈ [a, b, c, d], ∃ n < 10, x = Nat.digitChar n := fun x hx =>
    Text.exists_of_plainDigit (Text.isDigit_of_plain (hplain x (by
      simp only [List.mem_cons, List.not_mem_nil, or_false] at hx ⊢
      tauto)) (hdigits x hx))
  have hpair : ∀ i < 10, ∀ j < 10,
      twoDigits (Text.digitsValue [Nat.digitChar i, Nat.digitChar j]) =
        [Nat.digitChar i, Nat.digitChar j] := by decide
  obtain ⟨i, hi, rfl⟩ := hnumber a (by simp)
  obtain ⟨j, hj, rfl⟩ := hnumber b (by simp)
  obtain ⟨k, hk, rfl⟩ := hnumber c (by simp)
  obtain ⟨l, hl, rfl⟩ := hnumber d (by simp)
  rw [clock, hpair i hi j hj, hpair k hk l hl]
  rfl

/-- A plain text with a form is a phrase, unless its time of day is none. -/
theorem exists_of_spells {cs : List Char} (hf : f.Spells cs) (hplain : ∀ c ∈ cs, c.toNat < 128) :
    (∃ p : Phrase, p.IsValid ∧ p.text = cs ∧ p.form? = some f) ∨
      ∀ now v, f.milliseconds now v = refuse v := by
  have hrow : ∀ {ds rest : List Char}, IsRow Text.isDigit ds → (∀ c ∈ ds ++ rest, c.toNat < 128) →
      IsRow Char.isDigit ds := fun hds hplain =>
    ⟨hds.1, fun c hc => Text.isDigit_of_plain (hplain c (List.mem_append_left _ hc)) (hds.2 c hc)⟩
  obtain ⟨hds, hunit⟩ | @⟨ds, bs, time, h, m, hds, hbs, hclock⟩ |
    @⟨name, bs, time, h, m, hname, hbs, hclock⟩ := hf
  · obtain ⟨k, rfl, rfl⟩ := unit?_eq_some.1 hunit
    exact .inl ⟨.span _ k, hrow hds hplain, rfl, rfl⟩
  · obtain rfl := clock_of_plain hclock fun c hc => hplain c (by simp [hc])
    by_cases ht : isTimeOfDay h m = true
    · refine .inl ⟨.daysAndTime ds bs h m, ⟨hrow hds hplain, hbs, ?_⟩, rfl, rfl⟩
      simpa [isTimeOfDay] using ht
    · exact .inr fun now v => if_neg ht
  · obtain rfl := clock_of_plain hclock fun c hc => hplain c (by simp [hc])
    by_cases ht : isTimeOfDay h m = true
    · have hlower : name.map letter = name.map Char.toLower :=
        List.map_congr_left fun c hc => letter_eq_toLower fun hlong => by
          have hfar : (['ſ', 'ı', 'İ'].all fun x => 128 ≤ x.toNat) = true := by decide
          have hlow := hplain c (List.mem_append_left _ hc)
          have hhigh := of_decide_eq_true (List.all_eq_true.1 hfar c hlong)
          omega
      rw [hlower] at hname
      obtain ⟨w, hw⟩ := List.getElem?_of_mem hname
      refine .inl ⟨.weekday w name bs h m, ⟨hw, hbs, ?_⟩, rfl, rfl⟩
      simpa [isTimeOfDay] using ht
    · exact .inr fun now v => if_neg ht

theorem milliseconds_eq (hp : p.IsValid) (hf : p.form? = some f)
    (hlength : p.text.length ≤ Text.maxDigits)
    (hend : p.IsDated → now.micros + 7 * dayMicros < Date.count * dayMicros) :
    f.milliseconds now v = .ok (p.milliseconds now) := by
  have hcount : ∀ ds : List Char, IsRow Char.isDigit ds → ds.length ≤ Text.maxDigits →
      count ds = .ok (Nat.ofDigitChars 10 ds 0) := fun ds hds hle => by
    rw [count, if_pos hle, Text.digitsValue_of_plain hds.2]
  cases p with
  | atOnce => cases hf
  | span ds k =>
    cases hf
    have hds := hcount ds hp (by simp only [text, List.length_append] at hlength; omega)
    simp only [Form.milliseconds, hds]
    rfl
  | daysAndTime ds bs h m =>
    cases hf
    obtain ⟨hrow, -, hh, hm⟩ := hp
    have hds := hcount ds hrow (by simp only [text, List.length_append] at hlength; omega)
    have ht : isTimeOfDay h m = true := by simp [isTimeOfDay, hh, hm]
    simp only [Form.milliseconds, hds, ht]
    rfl
  | weekday w name bs h m =>
    cases hf
    obtain ⟨hname, -, hh, hm⟩ := hp
    have ht : isTimeOfDay h m = true := by simp [isTimeOfDay, hh, hm]
    rw [milliseconds_weekday (weekdayNumber_eq_ok.2 hname) ht]
    obtain hok | ⟨-, hover⟩ := untilWeekday_cases now w ht
    · exact hok
    · exact absurd (hend trivial) (Nat.not_lt.2 hover)

theorem ofChars?_text (hp : p.IsValid) : Form.ofChars? p.text = p.form? := by
  cases hf : p.form? with
  | none =>
    cases p with
    | atOnce => decide
    | _ => cases hf
  | some f => exact Form.ofChars?_eq_some.2 (spells hp hf)

/-- A text is one phrase at the most: it has one form, and with the form's parts taken off its
blanks are left. -/
theorem eq_of_text (hp : p.IsValid) (hq : q.IsValid) (h : p.text = q.text) : p = q := by
  have hform : p.form? = q.form? := by rw [← ofChars?_text hp, ← ofChars?_text hq, h]
  have hblanks : ∀ {front rest bs bs' : List Char},
      front ++ (bs ++ rest) = front ++ (bs' ++ rest) → bs = bs' := fun h =>
    List.append_cancel_right (List.append_cancel_left h)
  cases p with
  | atOnce =>
    cases q with
    | atOnce => rfl
    | _ => cases hform
  | span ds k =>
    cases q with
    | span ds' k' =>
      simp only [form?, Option.some.injEq, Form.span.injEq] at hform
      obtain ⟨rfl, -⟩ := hform
      have hletter : [k.letter] = [k'.letter] := List.append_cancel_left h
      cases k <;> cases k' <;> first | rfl | cases hletter
    | _ => cases hform
  | daysAndTime ds bs hours minutes =>
    cases q with
    | daysAndTime ds' bs' hours' minutes' =>
      simp only [form?, Option.some.injEq, Form.daysAndTime.injEq] at hform
      obtain ⟨rfl, rfl, rfl⟩ := hform
      rw [text, text, ← List.singleton_append, ← List.singleton_append (l := bs' ++ _),
        ← List.append_assoc, ← List.append_assoc ds] at h
      rw [hblanks h]
    | _ => cases hform
  | weekday w name bs hours minutes =>
    cases q with
    | weekday w' name' bs' hours' minutes' =>
      simp only [form?, Option.some.injEq, Form.weekday.injEq] at hform
      obtain ⟨rfl, rfl, rfl⟩ := hform
      have hw : weekdayNumber name = .ok w := weekdayNumber_eq_ok.2 hp.1
      rw [weekdayNumber_eq_ok.2 hq.1] at hw
      cases hw
      rw [hblanks h]
    | _ => cases hform

end Phrase

variable {now : Instant} {s : String}

/-- A phrase means what it says, if its digits are not too many and, where it names a day, the
calendar goes on for a week. -/
theorem parse_phrase {p : Phrase} (hp : p.IsValid) (hs : p.text = s.toList)
    (hlength : s.length ≤ Text.maxDigits)
    (hend : p.IsDated → now.micros + 7 * dayMicros < Date.count * dayMicros) :
    parse now (.text s) = .ok (p.milliseconds now) := by
  cases hf : p.form? with
  | none =>
    cases p with
    | atOnce =>
      obtain rfl : s = "0" := String.toList_inj.1 hs.symm
      rfl
    | _ => cases hf
  | some f =>
    have hspells := Phrase.spells hp hf
    rw [parse_spells (by rwa [← hs, hspells.trim_eq])]
    exact Phrase.milliseconds_eq hp hf (by rwa [hs, String.length_toList]) hend

/-- A plain text that is no phrase is refused. -/
theorem parse_phraseless (hplain : ∀ c ∈ s.toList, c.toNat < 128)
    (htrim : Text.trim s.toList = s.toList)
    (hnone : ¬ ∃ p : Phrase, p.IsValid ∧ p.text = s.toList) :
    parse now (.text s) = fail (.invalidDelay (.text s)) := by
  have hrefuse : parse now (.text s) = refuse (.text s) := by
    by_cases hf : ∃ f : Form, f.Spells s.toList
    · obtain ⟨f, hf⟩ := hf
      obtain ⟨p, hp, htext, -⟩ | hrefuse := Phrase.exists_of_spells hf hplain
      · exact absurd ⟨p, hp, htext⟩ hnone
      · rw [parse_spells (by rwa [htrim]), hrefuse]
    · refine parse_formless ?_ (fun f h => hf ⟨f, by rwa [htrim] at h⟩) now
      rintro rfl
      exact hnone ⟨.atOnce, trivial, rfl⟩
  rw [hrefuse]
  rfl

/-- A plain text without blanks around it is a delay if and only if it is a phrase, and is refused
otherwise; it is one phrase at the most, and means the same at every time unless it names a day. -/
theorem parse_plain (hplain : ∀ c ∈ s.toList, c.toNat < 128) (hlength : s.length ≤ Text.maxDigits)
    (hhead : ∀ c ∈ s.toList.head?, Text.isBlank c = false)
    (hlast : ∀ c ∈ s.toList.getLast?, Text.isBlank c = false)
    (hend : now.micros + 7 * dayMicros < Date.count * dayMicros) :
    (∀ n, parse now (.text s) = .ok n ↔
      ∃ p : Phrase, p.IsValid ∧ p.text = s.toList ∧ p.milliseconds now = n) ∧
    ((¬ ∃ p : Phrase, p.IsValid ∧ p.text = s.toList) →
      parse now (.text s) = fail (.invalidDelay (.text s))) ∧
    (∀ p q : Phrase, p.IsValid → q.IsValid → p.text = s.toList → q.text = s.toList → p = q) ∧
    ∀ p : Phrase, p.IsValid → p.text = s.toList → ¬ p.IsDated → ∀ other,
      parse other (.text s) = parse now (.text s) := by
  have htrim : Text.trim s.toList = s.toList := Text.trimOf_eq_self hhead hlast
  refine ⟨fun n => ⟨fun h => ?_, ?_⟩, parse_phraseless hplain htrim,
    fun p q hp hq hps hqs => Phrase.eq_of_text hp hq (hps.trans hqs.symm),
    fun p hp hs hdated other => ?_⟩
  · by_cases hphrase : ∃ p : Phrase, p.IsValid ∧ p.text = s.toList
    · obtain ⟨p, hp, hs⟩ := hphrase
      rw [parse_phrase hp hs hlength fun _ => hend] at h
      exact ⟨p, hp, hs, Except.ok.inj h⟩
    · rw [parse_phraseless hplain htrim hphrase] at h
      cases h
  · rintro ⟨p, hp, hs, rfl⟩
    exact parse_phrase hp hs hlength fun _ => hend
  · rw [parse_phrase hp hs hlength fun hd => absurd hd hdated,
      parse_phrase hp hs hlength fun hd => absurd hd hdated]
    cases p with
    | weekday => exact absurd trivial hdated
    | _ => rfl

theorem parse_plain_offset :
    ((∀ c ∈ "1d 09:30".toList, c.toNat < 128) ∧ "1d 09:30".length ≤ Text.maxDigits ∧
      (∀ c ∈ "1d 09:30".toList.head?, Text.isBlank c = false) ∧
      (∀ c ∈ "1d 09:30".toList.getLast?, Text.isBlank c = false) ∧
      brink.micros + 7 * dayMicros < Date.count * dayMicros) ∧
    parse brink (.text "1d 09:30") = .ok (day + 9 * hour + 30 * minute) ∧
    ∀ other, parse other (.text "1d 09:30") = parse brink (.text "1d 09:30") := by
  have hend : brink.micros + 7 * dayMicros < Date.count * dayMicros := by decide
  have hchars : "1d 09:30".toList = ['1', 'd', ' ', '0', '9', ':', '3', '0'] := by decide
  have hascii : ("1d 09:30".toList.all fun c => c.toNat < 128) = true := by decide
  have hhead : ∀ c ∈ "1d 09:30".toList.head?, Text.isBlank c = false := by
    rw [hchars]
    rintro c ⟨⟩
    decide
  have hlast : ∀ c ∈ "1d 09:30".toList.getLast?, Text.isBlank c = false := by
    rw [hchars]
    rintro c ⟨⟩
    decide
  have hlow : ∀ c ∈ "1d 09:30".toList, c.toNat < 128 := fun c hc =>
    of_decide_eq_true (List.all_eq_true.1 hascii c hc)
  have hplain := parse_plain (s := "1d 09:30") hlow (by decide) hhead hlast hend
  have hvalid : (Phrase.daysAndTime ['1'] [' '] 9 30).IsValid := by
    simp only [Phrase.IsValid, IsRow, List.mem_singleton, forall_eq]
    decide
  refine ⟨⟨hlow, by decide, hhead, hlast, hend⟩, ?_, ?_⟩
  · exact (hplain.1 _).2 ⟨_, hvalid, by decide, by decide⟩
  · exact hplain.2.2.2 _ hvalid (by decide) id

end Delay

end Syndicate
