import Syndicate.Proofs.Command.Plan
import Syndicate.Proofs.Config
import Syndicate.Proofs.Evaluation

/-! Where a run breaks before it executes tasks: on which values at each stage, given that something
has come of the stages before. What fails otherwise fails with an error that says which input cannot
be used. -/

namespace Syndicate

namespace Command

variable {a : Arguments} {config : Entries} {s : Situation} {fs : Files}

/-! ### Finding tasks -/

/-- There is no content file, or it breaks. -/
def ItemBreaks (a : Arguments) (s : Situation) (fs : Files) : Prop :=
  a.content = none ∨ ∃ path, a.content = some path ∧ Config.ContentBreaks fs path s.readers

theorem breaks_itemOf : Breaks (itemOf a s fs) ↔ ItemBreaks a s fs := by
  unfold itemOf ItemBreaks
  cases a.content with
  | none => simp
  | some path => simp [Config.breaks_loadContent]

theorem itemOf_failsWith : FailsWith Error.IsInput (itemOf a s fs) := by
  unfold itemOf
  split
  · exact Config.loadContent_failsWith
  · exact .faulty _

/-- The rules of a configuration count as true and break when they are loaded. -/
def RulesBreak (config : Entries) (now : Instant) : Prop :=
  (Entries.get config "rules").truthy = true ∧ Rule.RowBreaks now (Entries.get config "rules")

theorem breaks_rulesOf : Breaks (rulesOf config s.now) ↔ RulesBreak config s.now := by
  unfold rulesOf RulesBreak
  dsimp only
  split
  · simp [Rule.breaks_loadAll, *]
  · refine iff_of_false (not_breaks_ok []) fun h => ?_
    exact absurd h.1 ‹_›

theorem rulesOf_failsWith : FailsWith Error.IsInput (rulesOf config s.now) :=
  Rule.loadAll_failsWith

theorem evaluated_outcome (s : Situation) (c : Content) (registry : Registry) (rules : List Rule) :
    (evaluated s c registry rules).outcome = Routing.accepted Validator.body (.item c) >>= fun c =>
      Routing.walkOver (fun name => (registry.lookup name).isSome) s.now c rules := by
  rw [evaluated, Routing.tasks_eq_evaluation, Routing.evaluation_eq]
  cases Routing.accepted Validator.body (.item c) <;> rfl

/-- Something comes of the item, of the adapters and of the rules that a run reads. -/
structure Reads (a : Arguments) (config : Entries) (s : Situation) (fs : Files) (c : Content)
    (registry : Registry) (rules : List Rule) : Prop where
  item : itemOf a s fs = .ok c
  adapters : registered config s = .ok registry
  rules : rulesOf config s.now = .ok rules

/-- Finding tasks breaks: the content breaks, or the adapters, or the rules, or the text of the item
is none, or an accepted item cannot be matched with a rule. -/
inductive FindBreaks (a : Arguments) (config : Entries) (s : Situation) (fs : Files) : Prop
  | item (h : ItemBreaks a s fs)
  | adapters {c : Content} (hc : itemOf a s fs = .ok c) (h : Registry.SetupBreaks s.token config)
  | rules {c : Content} {registry : Registry} (hc : itemOf a s fs = .ok c)
    (hr : registered config s = .ok registry) (h : RulesBreak config s.now)
  | text {c : Content} {registry : Registry} {rules : List Rule}
    (h : Reads a config s fs c registry rules) (htext : Routing.IllTexted c)
  | tags {c : Content} {registry : Registry} {rules : List Rule} {r : Rule}
    (h : Reads a config s fs c registry rules)
    (haccepted : Routing.accepted Validator.body (.item c) = .ok c) (hr : r ∈ rules)
    (hmatch : r.conditions.Unmatchable c)

variable {c : Content} {registry : Registry} {rules : List Rule}

namespace Reads

variable (h : Reads a config s fs c registry rules)
include h

theorem isLoaded : ∀ r ∈ rules, r.IsLoaded s.now := Rule.loadAll_isLoaded h.rules

theorem found_eq : found a config s fs = (evaluated s c registry rules).outcome := by
  unfold found
  rw [h.item]
  show (registered config s >>= fun _ => _) = _
  rw [h.adapters]
  show (rulesOf config s.now >>= fun _ => _) = _
  rw [h.rules]
  rfl

theorem breaks_found : Breaks (found a config s fs) ↔ Routing.IllTexted c ∨
    Routing.accepted Validator.body (.item c) = .ok c ∧
      ∃ r ∈ rules, r.conditions.Unmatchable c := by
  rw [h.found_eq, evaluated_outcome, breaks_bind, Routing.breaks_accepted]
  refine or_congr_right ⟨?_, ?_⟩
  · rintro ⟨c', hc', hbreaks⟩
    obtain rfl := Routing.accepted_same hc'
    exact ⟨hc', (Routing.breaks_walkOver h.isLoaded).1 hbreaks⟩
  · rintro ⟨hc, hbreaks⟩
    exact ⟨c, hc, (Routing.breaks_walkOver h.isLoaded).2 hbreaks⟩

end Reads

theorem breaks_found : Breaks (found a config s fs) ↔ FindBreaks a config s fs := by
  constructor
  · intro h
    rcases breaks_bind.1 h with hitem | ⟨c, hc, hrest⟩
    · exact .item (breaks_itemOf.1 hitem)
    rcases breaks_bind.1 hrest with hadapters | ⟨registry, hr, hrest⟩
    · exact .adapters hc (Registry.breaks_build.1 hadapters)
    rcases breaks_bind.1 hrest with hrules | ⟨rules, hrules, -⟩
    · exact .rules hc hr (breaks_rulesOf.1 hrules)
    have hreads : Reads a config s fs c registry rules := ⟨hc, hr, hrules⟩
    rcases hreads.breaks_found.1 h with ht | ⟨hok, r, hr, hm⟩
    · exact .text hreads ht
    · exact .tags hreads hok hr hm
  · rintro (h | ⟨hc, h⟩ | ⟨hc, hr, h⟩ | ⟨h, ht⟩ | ⟨h, hok, hr, hm⟩)
    · exact breaks_bind.2 (.inl (breaks_itemOf.2 h))
    · refine breaks_bind.2 (.inr ⟨_, hc, breaks_bind.2 (.inl ?_)⟩)
      exact Registry.breaks_build.2 h
    · refine breaks_bind.2 (.inr ⟨_, hc, breaks_bind.2 (.inr ⟨_, hr, breaks_bind.2 (.inl ?_)⟩)⟩)
      exact breaks_rulesOf.2 h
    · exact h.breaks_found.2 (.inl ht)
    · exact h.breaks_found.2 (.inr ⟨hok, _, hr, hm⟩)

theorem evaluated_failsWith (h : ∀ r ∈ rules, r.IsLoaded s.now) :
    FailsWith Error.IsInput (evaluated s c registry rules).outcome := by
  rw [evaluated_outcome]
  exact .bind Routing.accepted_failsWith fun c => (Routing.walkOver_uses h).failsWith

theorem found_failsWith : FailsWith Error.IsInput (found a config s fs) := by
  refine .bind itemOf_failsWith fun c => .bind Registry.build_failsWith fun registry => ?_
  exact .bind_of_ok rulesOf_failsWith fun rules hrules =>
    evaluated_failsWith (Rule.loadAll_isLoaded hrules)

end Command

end Syndicate
