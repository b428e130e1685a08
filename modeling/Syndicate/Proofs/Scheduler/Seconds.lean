import Mathlib.Tactic.Linarith
import Mathlib.Tactic.Ring
import Syndicate.Scheduler

/-! The time that a delay waits. It is given in seconds, as a number of 64 bits: a delay of up to
two to the power 52 milliseconds comes through that unchanged. -/

namespace Syndicate

namespace Binary64

theorem twoTo_eq (n : Nat) : twoTo n = 2 ^ n := rfl

theorem twoTo_pos (n : Nat) : 0 < twoTo n := Nat.two_pow_pos n

theorem twoTo_add (m n : Nat) : twoTo (m + n) = twoTo m * twoTo n := by
  rw [twoTo_eq, twoTo_eq, twoTo_eq, Nat.pow_add]

theorem twoTo_le {m n : Nat} (h : m ≤ n) : twoTo m ≤ twoTo n :=
  Nat.pow_le_pow_right (by decide) h

/-! ### Rounding -/

/-- A rounded quotient is off by half of the denominator at most. -/
theorem roundHalfEven_near (num : Nat) {den : Nat} (h : 0 < den) :
    2 * num ≤ (2 * roundHalfEven num den + 1) * den ∧
    2 * roundHalfEven num den * den ≤ 2 * num + den := by
  have hdiv := Nat.div_add_mod num den
  have hmod := Nat.mod_lt num h
  have hpar := Nat.mod_two_eq_zero_or_one (num / den)
  unfold roundHalfEven
  dsimp only
  generalize num / den = q at hdiv hpar ⊢
  generalize num % den = r at hdiv hmod ⊢
  subst hdiv
  split
  · constructor <;> nlinarith
  · split
    · constructor <;> nlinarith
    · rcases hpar with hpar | hpar <;> rw [hpar] <;> constructor <;> nlinarith

/-- An integer that is closer to a quotient than one half is what the quotient is rounded to. -/
theorem roundHalfEven_eq {num den n : Nat} (h : 0 < den) (hlow : 2 * num < (2 * n + 1) * den)
    (hhigh : 2 * n * den < 2 * num + den) : roundHalfEven num den = n := by
  obtain ⟨hl, hh⟩ := roundHalfEven_near num h
  generalize roundHalfEven num den = r at hl hh
  have hle : r < n + 1 := by
    refine Nat.lt_of_mul_lt_mul_right (a := 2 * den) ?_
    nlinarith
  have hge : n < r + 1 := by
    refine Nat.lt_of_mul_lt_mul_right (a := 2 * den) ?_
    nlinarith
  omega

theorem step_pos (units : Nat) : 0 < step units := twoTo_pos _

/-- A number of units is off by half a step at most. -/
theorem nearest_near (num : Nat) {den : Nat} (h : 0 < den) :
    2 * num ≤ 2 * (nearest num den * den) + den * step (num / den) ∧
    2 * (nearest num den * den) ≤ 2 * num + den * step (num / den) := by
  have hs := Nat.mul_pos h (step_pos (num / den))
  obtain ⟨hl, hh⟩ := roundHalfEven_near num hs
  have hn : nearest num den * den =
      roundHalfEven num (den * step (num / den)) * (den * step (num / den)) := by
    simp only [nearest]
    ring
  rw [hn]
  constructor <;> nlinarith

/-- A multiple of its step is not rounded. -/
theorem nearest_of_dvd {num : Nat} (h : step num ∣ num) : nearest num 1 = num := by
  obtain ⟨k, hk⟩ := h
  have hs := step_pos num
  have hround : roundHalfEven num (1 * step num) = k := by
    apply roundHalfEven_eq <;> nlinarith
  simp only [nearest, Nat.div_one, hround]
  rw [Nat.mul_comm, ← hk]

/-- An integer of up to 53 bits is a number of units as it is. -/
theorem nearest_int {n e : Nat} (h : n < twoTo 53) :
    nearest (n * twoTo e) 1 = n * twoTo e := by
  apply nearest_of_dvd
  by_cases hn : n = 0
  · rw [hn, Nat.zero_mul]
    exact Nat.dvd_zero _
  · have hlt : n * twoTo e < twoTo (53 + e) := by
      rw [twoTo_add]
      exact Nat.mul_lt_mul_of_pos_right h (twoTo_pos e)
    have hlog : (n * twoTo e).log2 - 52 ≤ e := by
      have := (Nat.log2_lt (Nat.mul_ne_zero hn (Nat.ne_of_gt (twoTo_pos e)))).2 hlt
      omega
    have hstep : step (n * twoTo e) ∣ twoTo e := Nat.pow_dvd_pow 2 hlog
    exact Nat.dvd_trans hstep (Nat.dvd_mul_left _ n)

/-- Dividing by a thousand and multiplying again brings an integer of up to 52 bits back. -/
theorem nearest_thousandth {n e : Nat} (h : n ≤ twoTo 52) (he : 10 ≤ e) :
    roundHalfEven (nearest (n * twoTo e) 1000 * 1000) (twoTo e) = n := by
  have hquot : n * twoTo e / 1000 < twoTo (43 + e) := by
    have hsplit : twoTo (43 + e) * 512 = twoTo 52 * twoTo e := by
      rw [show (512 : Nat) = twoTo 9 from rfl, ← twoTo_add, ← twoTo_add]
      congr 1
      omega
    have hle : n * twoTo e ≤ twoTo 52 * twoTo e := Nat.mul_le_mul_right _ h
    have hbig := twoTo_pos (43 + e)
    rw [Nat.div_lt_iff_lt_mul (by decide)]
    omega
  have hstep : 1000 * step (n * twoTo e / 1000) < twoTo e := by
    have hlog : (n * twoTo e / 1000).log2 - 52 ≤ e - 10 := by
      by_cases hz : n * twoTo e / 1000 = 0
      · rw [hz, show Nat.log2 0 = 0 from rfl]
        omega
      · have := (Nat.log2_lt hz).2 hquot
        omega
    have hle : step (n * twoTo e / 1000) ≤ twoTo (e - 10) := twoTo_le hlog
    have hsplit : twoTo e = twoTo (e - 10) * 1024 := by
      rw [show (1024 : Nat) = twoTo 10 from rfl, ← twoTo_add]
      congr 1
      omega
    have hbig := twoTo_pos (e - 10)
    omega
  have hthousand : 0 < 1000 := by decide
  obtain ⟨hl, hh⟩ := nearest_near (n * twoTo e) hthousand
  have hpos := twoTo_pos e
  generalize nearest (n * twoTo e) 1000 * 1000 = num at hl hh
  generalize step (n * twoTo e / 1000) = s at hl hh hstep
  generalize twoTo e = o at hl hh hstep hpos
  apply roundHalfEven_eq hpos <;> nlinarith

theorem mul_twoTo_lt {n e : Nat} (h : n < twoTo 53) : n * twoTo e < twoTo (e + 1024) := by
  have hlt : n * twoTo e < twoTo 53 * twoTo e := Nat.mul_lt_mul_of_pos_right h (twoTo_pos e)
  rw [← twoTo_add] at hlt
  exact Nat.lt_of_lt_of_le hlt (twoTo_le (by omega))

theorem one_eq : one = twoTo 1074 := rfl

theorem limit_eq : limit = twoTo (1074 + 1024) := rfl

/-- An integer of up to 53 bits is in range. -/
theorem ofInt?_of_lt {n : Nat} (h : n < twoTo 53) : ofInt? n = some (.finite false (n * one)) := by
  have hneg : decide ((n : Int) < 0) = false := decide_eq_false (by omega)
  have hnum : nearest (n * one) 1 = n * one := by
    rw [one_eq]
    exact nearest_int h
  have hlimit : n * one < limit := by
    rw [one_eq, limit_eq]
    exact mul_twoTo_lt h
  rw [ofInt?, ofRatio, hneg, Int.natAbs_natCast, hnum, if_pos hlimit, finite?]

theorem thousandths_eq {n : Nat} (h : n ≤ twoTo 52) : (finite false (n * one)).thousandths = n := by
  rw [thousandths, one_eq]
  exact nearest_thousandth h (by decide)

end Binary64

/-- A delay of up to 52 bits is waited out to the millisecond. -/
theorem Settings.wait_eq {s : Settings} {delay : Int} (h : s.cap delay ≤ 2 ^ 52) :
    s.wait delay = .ok (s.cap delay).toNat := by
  have hle : (s.cap delay).toNat ≤ Binary64.twoTo 52 := by
    rw [Binary64.twoTo_eq]
    omega
  have hlt : (s.cap delay).toNat < Binary64.twoTo 53 :=
    Nat.lt_of_le_of_lt hle (Nat.pow_lt_pow_right (by decide) (by decide))
  rw [wait, Binary64.ofInt?_of_lt hlt, Option.elim_some, Binary64.thousandths_eq hle]

end Syndicate
