import Syndicate.Proofs.Config
import Syndicate.Proofs.Evaluation

/-! Rules that were loaded, at any later instant. Their delays are read at another time than they
were checked at, but what is a delay is one at every time: only the end of the calendar can still be
in the way. -/

namespace Syndicate

/-! ### Evaluation at another time -/

theorem Source.content_uses (s : Source) : Uses s.content := by
  cases s with
  | item c => exact .ok c
  | raw v =>
    show Uses (Content.ofValue v)
    unfold Content.ofValue
    dsimp only
    split
    · exact FailsWith.bind Value.toEntries_uses fun es => Content.ofEntries_uses es
    · exact FailsWith.bind (.ok []) fun es => Content.ofEntries_uses es

namespace Routing

variable {known : String → Bool} {now loaded : Instant} {c : Content} {rules : List Rule}

/-- A rule that was loaded at any time fails only by breaking. -/
theorem fails_of_loaded {r : Rule} (hr : r.IsLoaded loaded) (e : Error) :
    Step.fails (.error e) ∉ stepsOf known now c (.rule r) := by
  have hsteps : ∀ d ∈ r.publish,
      stepTo known now c (Value.ofOption r.name) d ≠ .fails (.error e) := by
    intro d hd
    obtain ⟨n, hn⟩ := hr.delays d hd
    unfold stepTo
    obtain ⟨m, hm⟩ | ⟨hover, -⟩ := Delay.parse_elsewhere hn now
    · rw [hm]
      split <;> simp
    · rw [hover]
      split <;> simp [faulty]
  simp only [stepsOf, RuleEntry.rule?]
  cases haccept : r.conditions.accept (.item c) with
  | error f =>
    rw [List.mem_singleton, Step.fails.injEq]
    rintro rfl
    exact Conditions.accept_uses hr.listed e haccept
  | ok met =>
    cases met with
    | false => exact List.not_mem_nil
    | true =>
      intro h
      obtain ⟨d, hd, hstep⟩ := List.mem_map.1 h
      exact hsteps d hd hstep

theorem walked_loaded_uses (h : ∀ r ∈ rules, r.IsLoaded loaded) :
    Uses (walkOver known now c rules) := by
  intro e he
  obtain ⟨entry, hentry, hfails⟩ := List.mem_flatMap.1 (fails_mem_of_walked he)
  obtain ⟨r, hr, rfl⟩ := List.mem_map.1 hentry
  exact fails_of_loaded (h r hr) e hfails

/-- Evaluating an item over loaded rules has no errors of the domain but those of the validator,
whether it fails itself or rejects the item. -/
theorem tasks_loaded_failsWith (h : ∀ r ∈ rules, r.IsLoaded loaded) (validator : Validator)
    (s : Source) :
    FailsWith (fun e => ∃ c, s.content = .ok c ∧ (validator c = .error (.error e) ∨
        ∃ verdict, validator c = .ok verdict ∧ e = .contentRejected verdict.errors))
      (tasks known now validator s (.ok (rules.map .rule))).outcome := by
  intro e he
  rw [tasks_eq_evaluation] at he
  unfold evaluation at he
  cases hc : s.content with
  | error f =>
    rw [hc] at he
    cases he
    exact (s.content_uses e hc).elim
  | ok c =>
    rw [hc] at he
    dsimp only at he
    cases hv : validator c with
    | error f =>
      rw [hv] at he
      cases he
      exact ⟨c, rfl, .inl hv⟩
    | ok verdict =>
      rw [hv] at he
      dsimp only at he
      split at he
      · exact (walked_loaded_uses h e he).elim
      · cases he
        exact ⟨c, rfl, .inr ⟨verdict, hv, rfl⟩⟩

end Routing

namespace Rule

variable {loaded : Instant} {v : Value} {rules : List Rule}

/-- The rules of a configuration that could be loaded have no delay that is refused at any other
instant, and each of their delays can be read until a week before the calendar ends. -/
theorem loadAll_delays (h : loadAll loaded v = .ok rules) (now : Instant) :
    (∀ known validator s literal,
      (Routing.tasks known now validator s (.ok (rules.map .rule))).outcome =
        fail (.invalidDelay literal) →
      ∃ c, s.content = .ok c ∧ validator c = fail (.invalidDelay literal)) ∧
    (now.micros + 7 * dayMicros < Date.count * dayMicros →
      ∀ r ∈ rules, ∀ d ∈ r.publish, ∃ n, Delay.parse now d.delay = .ok n) := by
  have hloaded := loadAll_isLoaded h
  refine ⟨fun known validator s literal hfail => ?_, fun hsoon r hr d hd => ?_⟩
  · obtain ⟨c, hc, hv | ⟨verdict, -, hreject⟩⟩ :=
      Routing.tasks_loaded_failsWith hloaded validator s _ hfail
    · exact ⟨c, hc, hv⟩
    · cases hreject
  · obtain ⟨n, hn⟩ := (hloaded r hr).delays d hd
    obtain hm | ⟨-, hend⟩ := Delay.parse_elsewhere hn now
    · exact hm
    · exact absurd hsoon (Nat.not_lt.2 hend)

/-- A configuration with one rule, which publishes on Mondays. -/
def weekly : Value := .list [.map [(.text "name", .text "weekly"), (.text "publish",
  .list [.map [(.text "adapter", .text "a"), (.text "delay", .text "Mon 10:00")]])]]

def weeklyRules : List Rule := [⟨some "weekly", {}, [⟨"a", .text "Mon 10:00", .null⟩]⟩]

/-- An instant twenty centuries after the one that the rules are loaded at. -/
def afterwards : Instant := ⟨63000000000000000, by decide⟩

theorem weekly_delays : loadAll default weekly = .ok weeklyRules ∧
    ∀ r ∈ weeklyRules, ∀ d ∈ r.publish, ∃ n, Delay.parse afterwards d.delay = .ok n := by
  have hload : loadAll default weekly = .ok weeklyRules := by rfl
  exact ⟨hload, (loadAll_delays hload afterwards).2 (by decide)⟩

end Rule

end Syndicate
