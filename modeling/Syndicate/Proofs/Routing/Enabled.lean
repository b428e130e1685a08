import Syndicate.Proofs.Evaluation

/-! Rules that are read when their turn comes, beside the same rules when they were loaded. What is
loaded evaluates as the entries that are switched on; reading an entry does not ask whether it
is. -/

namespace Syndicate

namespace Rule

variable {loaded : Instant} {v : Value} {vs : List Value} {rules : List Rule}

/-- Whether an entry of a configuration is switched off. -/
def isOff : Value → Bool
  | .map es => !isEnabled es
  | _ => false

/-- Nothing is loaded from an entry that is switched off, and from any other the rule that it is
read as. -/
theorem load_cases {r : Option Rule} (h : load loaded v = .ok r) :
    (isOff v = true ∧ r = none) ∨ (isOff v = false ∧ ∃ rule, r = some rule ∧
      ofValue v = .ok rule) := by
  cases v with
  | map es =>
    rw [load_map] at h
    split at h
    · rename_i hoff
      cases h
      exact .inl ⟨by simp [isOff, hoff], rfl⟩
    · rename_i hon
      split at h
      · unfold failShowing at h
        split at h <;> cases h
      · obtain ⟨rule, hrule, h⟩ := ok_of_bind h
        obtain ⟨_, -, h⟩ := ok_of_bind h
        cases h
        exact .inr ⟨by simpa [isOff] using hon, rule, rfl, hrule⟩
  | _ => cases h

/-- The entries that are switched on, each beside the rule that was loaded from it. -/
theorem loadEach_pairs (h : loadEach loaded vs = .ok rules) :
    List.Forall₂ (fun v rule => ofValue v = .ok rule) (vs.filter fun v => !isOff v) rules := by
  induction vs generalizing rules with
  | nil =>
    cases h
    exact .nil
  | cons v vs ih =>
    obtain ⟨r, hr, h⟩ := ok_of_bind h
    obtain ⟨rest, hrest, h⟩ := ok_of_bind h
    cases h
    obtain ⟨hoff, rfl⟩ | ⟨hon, rule, rfl, hrule⟩ := load_cases hr
    · rw [List.filter_cons_of_neg (by simp [hoff])]
      exact ih hrest
    · rw [List.filter_cons_of_pos (by simp [hon])]
      exact .cons hrule (ih hrest)

end Rule

namespace Routing

variable {known : String → Bool} {now loaded : Instant} {c : Content} {vs : List Value}
  {rules : List Rule}

/-! ### Loaded rules -/

/-- Only what the rules of a row are read as matters for its steps. -/
theorem steps_pairs (h : List.Forall₂ (fun v rule => Rule.ofValue v = .ok rule) vs rules) :
    (vs.map RuleEntry.raw).flatMap (stepsOf known now c) =
      (rules.map RuleEntry.rule).flatMap (stepsOf known now c) := by
  induction h with
  | nil => rfl
  | cons hrule _ ih =>
    simp only [List.map_cons, List.flatMap_cons]
    rw [ih, stepsOf, RuleEntry.rule?, hrule]
    rfl

/-- Rows with the same steps for every accepted item come to the same. -/
theorem tasks_congr {validator : Validator} {s : Source} {es es' : List RuleEntry}
    (h : ∀ c, accepted validator s = .ok c →
      es.flatMap (stepsOf known now c) = es'.flatMap (stepsOf known now c)) :
    tasks known now validator s (.ok es) = tasks known now validator s (.ok es') := by
  rw [tasks_eq_evaluation, tasks_eq_evaluation, evaluation_eq, evaluation_eq]
  cases hc : accepted validator s with
  | error f => rfl
  | ok c => exact congrArg walked (h c hc)

/-! ### Entries that contribute nothing -/

/-- Nothing comes of an entry for an item: it can be read and matched, and the item does not meet
its conditions or it has no destinations. -/
def Idle (c : Content) (v : Value) : Prop := ∃ r met, Rule.ofValue v = .ok r ∧
  r.conditions.accept (.item c) = .ok met ∧ (met = true → r.publish = [])

theorem stepsOf_eq_nil_iff : stepsOf known now c (.raw v) = [] ↔ Idle c v := by
  unfold stepsOf Idle
  simp only [RuleEntry.rule?]
  cases Rule.ofValue v with
  | error f => simp
  | ok r =>
    cases haccept : r.conditions.accept (.item c) with
    | error f => simp [haccept]
    | ok met => cases met <;> simp [haccept]

section

variable {α β : Type} {f : α → List β} {p : α → Bool} {xs : List α}

theorem flatMap_filter (h : ∀ x ∈ xs, p x = false → f x = []) :
    (xs.filter p).flatMap f = xs.flatMap f := by
  induction xs with
  | nil => rfl
  | cons x xs ih =>
    have hrest := ih fun y hy => h y (List.mem_cons_of_mem x hy)
    cases hx : p x with
    | true => rw [List.filter_cons_of_pos hx, List.flatMap_cons, List.flatMap_cons, hrest]
    | false =>
      rw [List.filter_cons_of_neg (by simp [hx]), List.flatMap_cons, hrest,
        h x List.mem_cons_self hx, List.nil_append]

theorem length_flatMap_filter_le (f : α → List β) (p : α → Bool) (xs : List α) :
    ((xs.filter p).flatMap f).length ≤ (xs.flatMap f).length := by
  induction xs with
  | nil => exact Nat.le_refl 0
  | cons x xs ih =>
    cases hx : p x with
    | true =>
      rw [List.filter_cons_of_pos hx]
      simpa using ih
    | false =>
      rw [List.filter_cons_of_neg (by simp [hx]), List.flatMap_cons, List.length_append]
      exact Nat.le_add_left_of_le ih

/-- As many are left when some are left out only if those contribute nothing. -/
theorem eq_nil_of_length_flatMap_filter
    (h : (xs.flatMap f).length = ((xs.filter p).flatMap f).length) :
    ∀ x ∈ xs, p x = false → f x = [] := by
  induction xs with
  | nil => exact fun x hx => absurd hx List.not_mem_nil
  | cons x xs ih =>
    have hle := length_flatMap_filter_le f p xs
    cases hx : p x with
    | true =>
      rw [List.filter_cons_of_pos hx] at h
      simp only [List.flatMap_cons, List.length_append, Nat.add_left_cancel_iff] at h
      refine List.forall_mem_cons.2 ⟨fun hoff => ?_, ih h⟩
      rw [hx] at hoff
      cases hoff
    | false =>
      rw [List.filter_cons_of_neg (by simp [hx]), List.flatMap_cons, List.length_append] at h
      exact List.forall_mem_cons.2
        ⟨fun _ => List.length_eq_zero_iff.1 (by omega), ih (by omega)⟩

end

/-- A walk that is not stopped reports or yields at every step. -/
theorem length_of_walked {steps : List Step} {ts : List Task}
    (h : (walked steps).outcome = .ok ts) :
    steps.length = (walked steps).events.length + ts.length := by
  induction steps generalizing ts with
  | nil =>
    cases h
    rfl
  | cons x steps ih =>
    cases x with
    | missing e =>
      rw [walked_missing] at h ⊢
      simp only [List.length_cons, ih h]
      omega
    | yields t =>
      rw [walked_yields] at h ⊢
      cases hrest : (walked steps).outcome with
      | error f =>
        rw [hrest] at h
        cases h
      | ok rest =>
        rw [hrest] at h
        cases h
        simp only [List.length_cons, ih hrest]
        omega
    | fails f => cases h

/-! ### Both ways to give rules -/

/-- Every entry that is switched off is idle for an item, if the item is accepted at all. -/
def OffIdle (validator : Validator) (s : Source) (vs : List Value) : Prop :=
  ∀ c, accepted validator s = .ok c → ∀ v ∈ vs, Rule.isOff v = true → Idle c v

/-- Loaded rules come to what the entries that are switched on come to when they are read in turn.
The same comes of all entries if those that are switched off are idle; and if tasks come of all
entries, then only in that case. -/
theorem tasks_loaded {loaded : Instant} {vs : List Value} {rules : List Rule}
    (h : Rule.loadAll loaded (.list vs) = .ok rules) (known : String → Bool) (now : Instant)
    (validator : Validator) (s : Source) :
    let built := tasks known now validator s (.ok (rules.map .rule))
    let raw := fun vs : List Value => tasks known now validator s (.ok (vs.map .raw))
    built = raw (vs.filter fun v => !Rule.isOff v) ∧
    (OffIdle validator s vs → raw vs = built) ∧
    ∀ ts, (raw vs).outcome = .ok ts → raw vs = built → OffIdle validator s vs := by
  dsimp only
  have hbuilt : tasks known now validator s (.ok (rules.map .rule)) =
      tasks known now validator s (.ok ((vs.filter fun v => !Rule.isOff v).map .raw)) :=
    tasks_congr fun c _ => (steps_pairs (Rule.loadEach_pairs h)).symm
  refine ⟨hbuilt, fun hidle => ?_, fun ts hts heq c hc => ?_⟩
  · rw [hbuilt]
    refine tasks_congr fun c hc => ?_
    simp only [List.flatMap_map]
    refine (flatMap_filter fun v hv hoff => ?_).symm
    exact stepsOf_eq_nil_iff.2 (hidle c hc v hv (by simpa using hoff))
  · rw [hbuilt] at heq
    have hsame : ∀ es, tasks known now validator s (.ok es) =
        walked (es.flatMap (stepsOf known now c)) := fun es => by
      rw [tasks_eq_evaluation, evaluation_eq, hc]
    rw [hsame, hsame] at heq
    rw [hsame] at hts
    have hall := length_of_walked hts
    rw [heq] at hts hall
    rw [← length_of_walked hts] at hall
    simp only [List.flatMap_map] at hall
    intro v hv hoff
    exact stepsOf_eq_nil_iff.1
      (eq_nil_of_length_flatMap_filter hall v hv (by simp [hoff]))

/-- An entry that is switched off, and one that says nothing about it. -/
def silenced : Value := .map [(.text "name", .text "off"), (.text "enabled", .bool false),
  (.text "publish", .list [.map [(.text "adapter", .text "a")]])]

def spoken : Value := .map [(.text "name", .text "on"),
  (.text "publish", .list [.map [(.text "adapter", .text "a")]])]

theorem tasks_spoken :
    Rule.loadAll default (.list [silenced, spoken]) = .ok [⟨some "on", {}, [⟨"a", .int 0, .null⟩]⟩] ∧
    tasks (· == "a") default Validator.body (.item { text := .text "hi" })
        (.ok [.rule ⟨some "on", {}, [⟨"a", .int 0, .null⟩]⟩]) =
      tasks (· == "a") default Validator.body (.item { text := .text "hi" })
        (.ok [.raw spoken]) := by
  have hload : Rule.loadAll default (.list [silenced, spoken]) =
      .ok [⟨some "on", {}, [⟨"a", .int 0, .null⟩]⟩] := by rfl
  exact ⟨hload, (tasks_loaded hload _ _ _ _).1⟩

/-- Nothing is loaded from the entry, and read in turn it publishes. -/
theorem silenced_publishes : Rule.loadAll default (.list [silenced]) = .ok [] ∧
    (tasks (· == "a") default Validator.body (.item { text := .text "hi" })
      (.ok [.raw silenced])).outcome =
        .ok [⟨"a", { text := .text "hi" }, 0, .text "off", .null⟩] ∧
    tasks (· == "a") default Validator.body (.item { text := .text "hi" }) (.ok [.raw silenced]) ≠
      tasks (· == "a") default Validator.body (.item { text := .text "hi" }) (.ok []) := by
  have hraw : (tasks (· == "a") default Validator.body (.item { text := .text "hi" })
      (.ok [.raw silenced])).outcome =
        .ok [⟨"a", { text := .text "hi" }, 0, .text "off", .null⟩] := by rfl
  refine ⟨by rfl, hraw, fun heq => ?_⟩
  rw [heq] at hraw
  cases hraw

end Routing

end Syndicate
