import Syndicate.Proofs.Rule.Pruned

/-! Evaluating an item under rules, and under the same rules without their nulls. -/

namespace Syndicate

open Outcome (Akin)

namespace Traced

variable {α β γ : Type}

/-- The same is reported, and the same comes of both or both fail with errors of one class. -/
structure Akin (x y : Traced α) : Prop where
  events : y.events = x.events
  outcome : Outcome.Akin (· = ·) x.outcome y.outcome

theorem Akin.refl (x : Traced α) : Akin x x := ⟨rfl, .refl (fun _ => rfl) _⟩

theorem akin_after {R : α → β → Prop} {x : Outcome α} {y : Outcome β} {f : α → Traced γ}
    {g : β → Traced γ} (h : Outcome.Akin R x y) (hf : ∀ a b, R a b → Akin (f a) (g b)) :
    Akin (ofOutcome x >>= f) (ofOutcome y >>= g) := by
  cases h with
  | ok hab => exact hf _ _ hab
  | error he => exact ⟨rfl, .error he⟩

end Traced

namespace Routing

variable {known : String → Bool} {now : Instant} {c : Content} {validator : Validator} {s : Source}
  {rules pruned : List Rule}

/-- The tasks for an item under rules that are all loaded before. -/
def tasksUnder (known : String → Bool) (loaded now : Instant) (validator : Validator) (s : Source)
    (vs : List Value) : Traced (List Task) := do
  let rules ← Traced.ofOutcome (Rule.loadAll loaded (.list vs))
  tasks known now validator s (.ok (rules.map .rule))

theorem stepTo_same {rule : Value} {d e : Destination} (h : Destination.Same d e) :
    stepTo known now c rule e = stepTo known now c rule d := by
  unfold stepTo
  rw [h.adapter, h.delay, h.channel]

theorem stepsTo_same {rule : Value} {ds es : List Destination}
    (h : List.Forall₂ Destination.Same ds es) :
    es.map (stepTo known now c rule) = ds.map (stepTo known now c rule) := by
  induction h with
  | nil => rfl
  | cons hde _ ih => rw [List.map_cons, List.map_cons, stepTo_same hde, ih]

theorem stepsOf_same {r q : Rule} (h : Rule.Same (· = ·) r q) :
    stepsOf known now c (.rule q) = stepsOf known now c (.rule r) := by
  simp only [stepsOf, RuleEntry.rule?, h.name, ← h.conditions, stepsTo_same h.publish]

theorem tasks_same (h : List.Forall₂ (Rule.Same (· = ·)) rules pruned) :
    tasks known now validator s (.ok (pruned.map .rule)) =
      tasks known now validator s (.ok (rules.map .rule)) := by
  refine tasks_congr fun c _ => ?_
  induction h with
  | nil => rfl
  | cons hrq _ ih =>
    simp only [List.map_cons, List.flatMap_cons]
    rw [stepsOf_same hrq, ih]

/-- A rule is loaded alike without its nulls if and only if no null speaks in it. If none speaks in
any rule of a row, every item comes to the same under all of them without their nulls. -/
theorem tasksUnder_pruned (loaded : Instant) (vs : List Value) :
    (∀ v, Akin (Option.Rel (Rule.Same (· = ·))) (Rule.load loaded v)
      (Rule.load loaded (Rule.pruned v)) ↔ ¬ Rule.NullSpeaks loaded v) ∧
    ((∀ v ∈ vs, ¬ Rule.NullSpeaks loaded v) → ∀ known now validator s,
      Traced.Akin (tasksUnder known loaded now validator s vs)
        (tasksUnder known loaded now validator s (vs.map Rule.pruned))) := by
  refine ⟨fun v => ⟨fun h hv => Rule.load_not_akin hv h, Rule.load_akin⟩, ?_⟩
  intro h known now validator s
  have hload : Akin (List.Forall₂ (Rule.Same (· = ·))) (Rule.loadAll loaded (.list vs))
      (Rule.loadAll loaded (.list (vs.map Rule.pruned))) := Rule.loadEach_akin h
  refine Traced.akin_after hload fun rules pruned hrules => ?_
  rw [tasks_same hrules]
  exact .refl _

/-- An entry with nulls on every level, none of which speaks. -/
def annotated : Value := .map [(.text "name", .text "all"), (.text "note", .null),
  (.text "if", .map [(.text "tags", .null), (.text "hasMedia", .null)]),
  (.text "publish", .list [.map [(.text "adapter", .text "a"), (.text "delay", .null),
    (.text "channel", .null)]])]

theorem tasksUnder_annotated : (∀ v ∈ [annotated], ¬ Rule.NullSpeaks default v) ∧
    Traced.Akin
      (tasksUnder (· == "a") default default Validator.body (.item { text := .text "hi" })
        [annotated])
      (tasksUnder (· == "a") default default Validator.body (.item { text := .text "hi" })
        [Rule.pruned annotated]) := by
  have hload : Akin (Option.Rel (Rule.Same (· = ·))) (Rule.load default annotated)
      (Rule.load default (Rule.pruned annotated)) :=
    .ok (.some ⟨rfl, rfl, .cons ⟨rfl, fun _ => rfl, rfl⟩ .nil⟩)
  have hsilent : ∀ v ∈ [annotated], ¬ Rule.NullSpeaks default v := by
    intro v hv
    rw [List.mem_singleton.1 hv]
    exact ((tasksUnder_pruned default []).1 annotated).1 hload
  exact ⟨hsilent, (tasksUnder_pruned default [annotated]).2 hsilent _ _ _ _⟩

/-- An entry whose switch is bound to null. -/
def unswitched : Value := .map [(.text "name", .text "r"), (.text "enabled", .null),
  (.text "publish", .list [.map [(.text "adapter", .text "a")]])]

/-- Nothing is loaded from the entry, and without its null it publishes. -/
theorem unswitched_silenced :
    (tasksUnder (· == "a") default default Validator.body (.item { text := .text "hi" })
      [unswitched]).outcome = .ok [] ∧
    (tasksUnder (· == "a") default default Validator.body (.item { text := .text "hi" })
      [Rule.pruned unswitched]).outcome =
        .ok [⟨"a", { text := .text "hi" }, 0, .text "r", .null⟩] ∧
    ¬ Traced.Akin
      (tasksUnder (· == "a") default default Validator.body (.item { text := .text "hi" })
        [unswitched])
      (tasksUnder (· == "a") default default Validator.body (.item { text := .text "hi" })
        [Rule.pruned unswitched]) := by
  have hraw : (tasksUnder (· == "a") default default Validator.body
      (.item { text := .text "hi" }) [unswitched]).outcome = .ok [] := by rfl
  have hpruned : (tasksUnder (· == "a") default default Validator.body
      (.item { text := .text "hi" }) [Rule.pruned unswitched]).outcome =
        .ok [⟨"a", { text := .text "hi" }, 0, .text "r", .null⟩] := by rfl
  refine ⟨hraw, hpruned, fun h => ?_⟩
  have houtcome := h.outcome
  rw [hraw, hpruned] at houtcome
  rcases houtcome with ⟨⟨⟩⟩

end Routing

end Syndicate
