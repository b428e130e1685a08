import Syndicate.Proofs.Routing
import Syndicate.Proofs.Rule

/-! Where evaluating an item over rules breaks, and what else it fails with. -/

namespace Syndicate

/-! ### Conditions -/

namespace Conditions

variable {k : Conditions} {c : Content}

/-- Tags are asked for, and one of them or of those of an item is no scalar. -/
def Unmatchable (k : Conditions) (c : Content) : Prop := ∃ xs, k.tags = .list xs ∧
  ((∃ x ∈ xs, x.isScalar = false) ∨ ∃ x ∈ c.tags, x.isScalar = false)

theorem asSet_uses (xs : List Value) : Uses (Value.asSet xs) := by
  unfold Value.asSet
  split
  · exact .ok _
  · exact .faulty _

theorem tagsMeet_list {xs : List Value} (h : k.tags = .list xs) (tags : List Value) :
    k.tagsMeet tags = (do
      let wanted ← Value.asSet xs
      let given ← Value.asSet tags
      pure (share wanted given)) := by
  rw [tagsMeet, h]
  rfl

theorem tagsMeet_null (h : k.tags = .null) (tags : List Value) : k.tagsMeet tags = .ok true := by
  rw [tagsMeet, h]
  rfl

theorem tagsMeet_uses (h : k.IsListed) (tags : List Value) : Uses (k.tagsMeet tags) := by
  rcases h with h | ⟨xs, h⟩
  · rw [tagsMeet_null h]
    exact .ok true
  · rw [tagsMeet_list h]
    exact .bind (asSet_uses xs) fun _ => .bind (asSet_uses tags) fun _ => .pure _

theorem breaks_tagsMeet (h : k.IsListed) : Breaks (k.tagsMeet c.tags) ↔ k.Unmatchable c := by
  rcases h with h | ⟨xs, h⟩
  · rw [tagsMeet_null h, Unmatchable, h]
    simp
  · rw [tagsMeet_list h, Unmatchable, h]
    have hgiven : ∀ wanted, Breaks (do
        let given ← Value.asSet c.tags
        pure (share wanted given)) ↔ ∃ x ∈ c.tags, x.isScalar = false := fun wanted => by
      rw [bind_pure_comp, breaks_mapped, Value.breaks_asSet]
    rw [(asSet_uses xs).breaks_bind hgiven, Value.breaks_asSet]
    simp

theorem meet_uses (h : k.IsListed) : Uses (k.meet c) :=
  .bind (tagsMeet_uses h c.tags) fun _ => .pure _

theorem accept_uses (h : k.IsListed) : Uses (k.accept (.item c)) := by
  unfold accept
  split
  · exact .ok true
  · exact meet_uses h

theorem breaks_accept (h : k.IsListed) : Breaks (k.accept (.item c)) ↔ k.Unmatchable c := by
  have hmeet : Breaks (k.meet c) ↔ k.Unmatchable c := by
    rw [← breaks_tagsMeet h, meet, bind_pure_comp, breaks_mapped]
  unfold accept
  cases hempty : k.isEmpty with
  | false => exact hmeet
  | true =>
    rw [if_pos rfl]
    refine iff_of_false (not_breaks_ok _) ?_
    rintro ⟨xs, hxs, -⟩
    simp [isEmpty, hxs, Value.isNull] at hempty

end Conditions

/-! ### Walks -/

namespace Routing

variable {known : String → Bool} {now : Instant} {c : Content} {rules : List Rule}

/-- A step that fails is that of a rule whose conditions break. -/
theorem fails_mem_stepsOf {r : Rule} (hr : r.IsLoaded now) {f : Failure} :
    .fails f ∈ stepsOf known now c (.rule r) ↔ r.conditions.accept (.item c) = .error f := by
  have hsteps : ∀ d ∈ r.publish, stepTo known now c (Value.ofOption r.name) d ≠ .fails f := by
    intro d hd
    obtain ⟨n, hn⟩ := hr.delays d hd
    unfold stepTo
    rw [hn]
    split <;> simp
  simp only [stepsOf, RuleEntry.rule?]
  rcases r.conditions.accept (.item c) with f' | met
  · simp [eq_comm]
  · cases met with
    | false => simp
    | true => simpa using hsteps

theorem failure_of_mem {f : Failure} {steps : List Step} (h : .fails f ∈ steps) :
    ∃ f', (walked steps).outcome = .error f' := by
  cases hfind : steps.findSome? Step.failure? with
  | some f' => exact ⟨f', by simp only [walked, hfind]⟩
  | none =>
    have hnone : (Step.fails f).failure? = none := List.findSome?_eq_none_iff.1 hfind _ h
    cases hnone

theorem fails_mem_of_walked {f : Failure} {steps : List Step}
    (h : (walked steps).outcome = .error f) : .fails f ∈ steps := by
  simp only [walked] at h
  cases hfind : steps.findSome? Step.failure? with
  | none =>
    rw [hfind] at h
    cases h
  | some f' =>
    rw [hfind] at h
    obtain ⟨x, hx, hf⟩ := List.exists_of_findSome?_eq_some hfind
    cases x with
    | fails f'' =>
      cases hf
      cases h
      exact hx
    | _ => cases hf

/-- The walk over the loaded rules for an item. -/
abbrev walkOver (known : String → Bool) (now : Instant) (c : Content) (rules : List Rule) :
    Outcome (List Task) :=
  (walked ((rules.map .rule).flatMap (stepsOf known now c))).outcome

/-- The walk fails with what the conditions of a rule fail with. -/
theorem accept_of_walked (h : ∀ r ∈ rules, r.IsLoaded now) {f : Failure}
    (hw : walkOver known now c rules = .error f) :
    ∃ r ∈ rules, r.conditions.accept (.item c) = .error f := by
  obtain ⟨e, he, hsteps⟩ := List.mem_flatMap.1 (fails_mem_of_walked hw)
  obtain ⟨r, hr, rfl⟩ := List.mem_map.1 he
  exact ⟨r, hr, (fails_mem_stepsOf (h r hr)).1 hsteps⟩

theorem walkOver_uses (h : ∀ r ∈ rules, r.IsLoaded now) : Uses (walkOver known now c rules) := by
  intro e he
  obtain ⟨r, hr, haccept⟩ := accept_of_walked h he
  exact Conditions.accept_uses (h r hr).listed e haccept

/-- A walk over loaded rules breaks where an item cannot be matched with the tags of one. -/
theorem breaks_walkOver (h : ∀ r ∈ rules, r.IsLoaded now) :
    Breaks (walkOver known now c rules) ↔ ∃ r ∈ rules, r.conditions.Unmatchable c := by
  constructor
  · rintro ⟨f, hf⟩
    obtain ⟨r, hr, haccept⟩ := accept_of_walked h hf
    exact ⟨r, hr, (Conditions.breaks_accept (h r hr).listed).1 ⟨f, haccept⟩⟩
  · rintro ⟨r, hr, hunmatchable⟩
    obtain ⟨f, hf⟩ := (Conditions.breaks_accept (h r hr).listed).2 hunmatchable
    have hmem : .fails (.fault f) ∈ (rules.map .rule).flatMap (stepsOf known now c) :=
      List.mem_flatMap.2 ⟨.rule r, List.mem_map_of_mem hr, (fails_mem_stepsOf (h r hr)).2 hf⟩
    obtain ⟨e | f', hfails⟩ := failure_of_mem hmem
    · exact (walkOver_uses h e hfails).elim
    · exact ⟨f', hfails⟩

/-- The text of an item is there and is none. -/
def IllTexted (c : Content) : Prop := c.text.truthy = true ∧ ∀ s, c.text ≠ .text s

theorem breaks_accepted : Breaks (accepted Validator.body (.item c)) ↔ IllTexted c := by
  have htext : Breaks (Validator.hasText c.text) ↔ IllTexted c := by
    unfold Validator.hasText IllTexted
    cases htruthy : c.text.truthy with
    | false => simp
    | true => cases c.text <;> simp
  have hverdict : ∀ verdict : Verdict, ¬ Breaks (if verdict.valid then pure c
      else fail (.contentRejected verdict.errors) : Outcome Content) := by
    intro verdict
    cases verdict.valid <;> simp
  have hbody : Breaks (Validator.body c) ↔ Breaks (Validator.hasText c.text) := by
    rw [Validator.body, bind_pure_comp, breaks_mapped]
  show Breaks (Validator.body c >>= fun verdict => _) ↔ _
  rw [breaks_bind, hbody, htext]
  simp only [hverdict, and_false, exists_false, or_false]

theorem accepted_same {c' : Content} (h : accepted Validator.body (.item c) = .ok c') : c' = c := by
  obtain ⟨c, hc, h⟩ := ok_of_bind h
  cases hc
  obtain ⟨verdict, -, h⟩ := ok_of_bind h
  split at h
  · exact (Except.ok.inj h).symm
  · cases h

theorem accepted_failsWith : FailsWith Error.IsInput (accepted Validator.body (.item c)) := by
  have htext : ∀ v, Uses (Validator.hasText v) := fun v => by
    unfold Validator.hasText
    split
    · exact .ok _
    · split
      · exact .ok _
      · exact .faulty _
  refine .bind (.ok c) fun c => .bind ?_ fun verdict => ?_
  · exact .bind (htext _).failsWith fun _ => .pure _
  · split
    · exact .pure _
    · exact .fail trivial

end Routing

end Syndicate
