import Mathlib.Data.List.Basic
import Mathlib.Data.List.TakeWhile
import Syndicate.Text.Numeral
import Syndicate.Value.Coerce

/-! Characters and numerals: which characters are digits and which are blanks, what is left of a
text that is trimmed, and that the text which shows a number is read as that number. -/

namespace Syndicate

namespace Text

/-! ### Characters -/

section Characters

variable {c : Char} {cs rest : List Char} {kind : Char → Bool}

/-- The digits of the first script come first, and all others behind a gap. -/
theorem isDigit_range (h : isDigit c = true) :
    48 ≤ c.toNat ∧ c.toNat ≤ 57 ∨ 1632 ≤ c.toNat := by
  obtain ⟨d, hd⟩ := Option.isSome_iff_exists.1 h
  obtain ⟨z, hz, -⟩ := Option.map_eq_some_iff.1 hd
  have hzero : z = 48 ∨ 1632 ≤ z := by
    have hall : ∀ z ∈ zeros, z = 48 ∨ 1632 ≤ z := by decide
    exact hall z (List.mem_of_find?_eq_some hz)
  have hrow := List.find?_some hz
  simp only [Bool.and_eq_true, decide_eq_true_eq] at hrow
  omega

theorem isBlank_of_isDigit (h : isDigit c = true) : isBlank c = false := by
  have hdigit : ∀ n ∈ blanks, isDigit (Char.ofNat n) = false := by decide
  by_contra hblank
  rw [Bool.not_eq_false] at hblank
  have hno := hdigit c.toNat (List.contains_iff_mem.1 hblank)
  rw [Char.ofNat_toNat, h] at hno
  cases hno

theorem takeWhile_none (h : ∀ c ∈ cs.head?, kind c = false) :
    cs.takeWhile kind = [] ∧ cs.dropWhile kind = cs := by
  cases cs with
  | nil => exact ⟨rfl, rfl⟩
  | cons c cs => simp [h c rfl]

theorem takeWhile_row (h : ∀ c ∈ cs, kind c = true) (hrest : ∀ c ∈ rest.head?, kind c = false) :
    (cs ++ rest).takeWhile kind = cs ∧ (cs ++ rest).dropWhile kind = rest := by
  obtain ⟨htake, hdrop⟩ := takeWhile_none hrest
  rw [List.takeWhile_append_of_pos h, List.dropWhile_append_of_pos h, htake, hdrop,
    List.append_nil]
  exact ⟨rfl, rfl⟩

/-- A text is its own trimmed form if neither end of it is of the kind. -/
theorem trimOf_eq_self (hhead : ∀ c ∈ cs.head?, kind c = false)
    (hlast : ∀ c ∈ cs.getLast?, kind c = false) : trimOf kind cs = cs := by
  rw [trimOf, (takeWhile_none hhead).2, (takeWhile_none (by rwa [List.head?_reverse])).2,
    List.reverse_reverse]

end Characters

/-! ### Plain digits -/

section Plain

variable {c : Char} {cs : List Char}

theorem isDigit_of_plain (hc : c.toNat < 128) (hdigit : isDigit c = true) : c.isDigit = true := by
  have hrange := isDigit_range hdigit
  exact Char.isDigit_iff_toNat.2 ⟨show 48 ≤ c.toNat by omega, show c.toNat ≤ 57 by omega⟩

/-- A plain digit is the one of a number below ten. -/
theorem exists_of_plainDigit (hc : c.isDigit = true) : ∃ n < 10, c = Nat.digitChar n := by
  obtain ⟨hlow, hhigh⟩ := Char.isDigit_iff_toNat.1 hc
  have hlow : 48 ≤ c.toNat := hlow
  have hhigh : c.toNat ≤ 57 := hhigh
  refine ⟨c.toNat - 48, by omega, Char.toNat_inj.1 ?_⟩
  rw [Nat.toNat_digitChar_of_lt_ten (by omega)]
  omega

theorem digit?_of_plain (hc : c.isDigit = true) : digit? c = some (c.toNat - 48) := by
  have hall : ∀ n < 10, digit? (Nat.digitChar n) = some ((Nat.digitChar n).toNat - 48) := by decide
  obtain ⟨n, hn, rfl⟩ := exists_of_plainDigit hc
  exact hall n hn

theorem digitsValue_of_plain (hcs : ∀ c ∈ cs, c.isDigit = true) :
    digitsValue cs = Nat.ofDigitChars 10 cs 0 := by
  unfold digitsValue Nat.ofDigitChars
  refine List.foldl_ext _ _ _ fun n c hc => ?_
  rw [digit?_of_plain (hcs c hc), Nat.mul_comm]
  rfl

theorem plainDigit_of_plain (hc : c.isDigit = true) : plainDigit c = c := by
  have hall : ∀ n < 10, plainDigit (Nat.digitChar n) = Nat.digitChar n := by decide
  obtain ⟨n, hn, rfl⟩ := exists_of_plainDigit hc
  exact hall n hn

theorem isPadding_of_plain (hc : c.isDigit = true) : isPadding c = false := by
  have hdigit : isDigit c = true := by rw [isDigit, digit?_of_plain hc, Option.isSome_some]
  rw [isPadding, isBlank_of_isDigit hdigit, Bool.false_and]

end Plain

/-! ### Numerals -/

section Numerals

variable {cs : List Char}

/-- There are no underscores to remove among digits. -/
theorem joinDigits?_of_plain (hcs : ∀ c ∈ cs, c.isDigit = true) (prev : Bool) :
    joinDigits? prev cs = some cs := by
  induction cs generalizing prev with
  | nil => rfl
  | cons c cs ih =>
    obtain ⟨hc, hcs⟩ := List.forall_mem_cons.1 hcs
    have hmark : c ≠ '_' := by
      rintro rfl
      cases hc
    rw [joinDigits?]
    · rw [ih hcs]
      rfl
    · exact fun d rest h _ => absurd h hmark
    · exact fun h _ => absurd h hmark

/-- A numeral of digits with a minus sign or none is read as it stands. -/
theorem numeral?_of_plain (negative : Bool) (hne : cs ≠ []) (hcs : ∀ c ∈ cs, c.isDigit = true) :
    numeral? (String.ofList (if negative then '-' :: cs else cs)) = some (negative, cs) := by
  have hplain : cs.map plainDigit = cs := by
    conv_rhs => rw [← List.map_id cs]
    exact List.map_congr_left fun c hc => plainDigit_of_plain (hcs c hc)
  have hsign : isPadding '-' = false ∧ plainDigit '-' = '-' := by decide
  have hedge : ∀ c ∈ (if negative then '-' :: cs else cs), isPadding c = false := by
    intro c hc
    split at hc
    · rcases List.mem_cons.1 hc with rfl | hc
      · exact hsign.1
      · exact isPadding_of_plain (hcs c hc)
    · exact isPadding_of_plain (hcs c hc)
  have htrim : trimOf isPadding (if negative then '-' :: cs else cs) =
      if negative then '-' :: cs else cs :=
    trimOf_eq_self (fun c hc => hedge c (List.mem_of_mem_head? hc))
      fun c hc => hedge c (List.mem_of_mem_getLast? hc)
  have hsplit : splitSign ((if negative then '-' :: cs else cs).map plainDigit) =
      (negative, cs) := by
    cases negative with
    | true =>
      rw [if_pos rfl, List.map_cons, hsign.2, hplain]
      rfl
    | false =>
      rw [if_neg Bool.false_ne_true, hplain]
      cases cs with
      | nil => exact absurd rfl hne
      | cons c rest =>
        have hc := hcs c List.mem_cons_self
        rw [splitSign]
        · rintro rest' ⟨⟩
          cases hc
        · rintro rest' ⟨⟩
          cases hc
  rw [numeral?, String.toList_ofList, htrim, hsplit]
  dsimp only
  rw [joinDigits?_of_plain hcs]
  rfl

/-- An integer is shown as its digits, after a minus sign if it is negative. -/
theorem toString_eq_ofList (i : Int) : toString i = String.ofList
    (if decide (i < 0) then '-' :: Nat.toDigits 10 i.natAbs else Nat.toDigits 10 i.natAbs) := by
  cases i with
  | ofNat n => exact Nat.toString_eq_ofList_toDigits
  | negSucc n =>
    have hneg : decide (Int.negSucc n < 0) = true := decide_eq_true (Int.negSucc_lt_zero n)
    rw [if_pos hneg, Int.natAbs_negSucc]
    show "-" ++ Nat.repr (n + 1) = _
    rw [Nat.repr_eq_ofList_toDigits]
    exact String.toList_injective (by simp)

theorem isDigit_toDigits (n : Nat) : ∀ c ∈ Nat.toDigits 10 n, c.isDigit = true := fun _ hc =>
  Nat.isDigit_of_mem_toDigits (by decide) (by decide) hc

/-- The digits that show a number are read as that number. -/
theorem digitsValue_toDigits (n : Nat) : digitsValue (Nat.toDigits 10 n) = n := by
  rw [digitsValue_of_plain (isDigit_toDigits n), Nat.ofDigitChars_ten_toDigits]

/-- The text that shows an integer is read as that integer, if it has not too many digits. -/
theorem integer?_toString {i : Int} (h : (toString i.natAbs).length ≤ maxDigits) :
    integer? (toString i) = some i := by
  have hlength : (Nat.toDigits 10 i.natAbs).length ≤ maxDigits := by
    rwa [Nat.toString_eq_ofList_toDigits, String.length_ofList] at h
  have hsign : withSign (decide (i < 0)) i.natAbs = i := by
    unfold withSign
    split
    · rename_i hneg
      have := of_decide_eq_true hneg
      omega
    · rename_i hneg
      have := of_decide_eq_false (Bool.not_eq_true _ ▸ hneg)
      omega
  rw [integer?, toString_eq_ofList, numeral?_of_plain _ Nat.toDigits_ne_nil
    (isDigit_toDigits _)]
  simpa [Nat.toDigits_ne_nil, hlength, digitsValue_toDigits, hsign] using isDigit_toDigits i.natAbs

end Numerals

end Text

end Syndicate
