import Syndicate.Proofs.Delay
import Syndicate.Rule

/-! Which rules break when they are loaded, and what is left to break with rules that were loaded:
their delays have been read, and the tags they ask for are a list. -/

namespace Syndicate

/-! ### Conditions -/

namespace Conditions

variable {v : Value} {k : Conditions} {es : Entries}

/-- The tags that a rule asks for are there and are no row. -/
def TagsMisfit (es : Entries) : Prop :=
  (Entries.get es "tags").isNull = false ∧ (Entries.get es "tags").isRow = false

/-- No tags are asked for, or a list of them is. -/
def IsListed (k : Conditions) : Prop := k.tags = .null ∨ ∃ xs, k.tags = .list xs

theorem breaks_tagsOf : Breaks (tagsOf v) ↔ v.isNull = false ∧ v.isRow = false := by
  cases v <;> simp [tagsOf, Value.items, Value.isNull, Value.isRow]

theorem tagsOf_uses : Uses (tagsOf v) := by
  unfold tagsOf
  split
  · exact .ok _
  · exact .ok _
  · exact .bind Value.items_uses fun _ => .pure _

theorem tagsOf_listed {w : Value} (h : tagsOf v = .ok w) : w = .null ∨ ∃ xs, w = .list xs := by
  unfold tagsOf at h
  split at h
  · cases h
    exact .inl rfl
  · cases h
    exact .inr ⟨_, rfl⟩
  · obtain ⟨xs, -, h⟩ := ok_of_bind h
    cases h
    exact .inr ⟨xs, rfl⟩

theorem ofEntries_uses : Uses (ofEntries es) := .bind tagsOf_uses fun _ => .pure _

theorem breaks_ofEntries : Breaks (ofEntries es) ↔ TagsMisfit es := by
  unfold ofEntries TagsMisfit
  simp [breaks_tagsOf]

theorem ofValue_eq : ofValue v = (if v.truthy then v.entries "get" else .ok []) >>= ofEntries := by
  unfold ofValue
  dsimp only
  split <;> rfl

theorem ofValue_uses : Uses (ofValue v) := by
  rw [ofValue_eq]
  exact .bind Value.section_uses fun _ => ofEntries_uses

/-- The conditions of a rule are no mapping, or ask for tags that are no row. -/
inductive Misfits (v : Value) : Prop
  | misshapen (h : v.Misshapen)
  | tags {es : Entries} (hes : v = .map es) (h : TagsMisfit es)

theorem breaks_ofValue : Breaks (ofValue v) ↔ Misfits v := by
  rw [ofValue_eq, breaks_bind, Value.breaks_section]
  constructor
  · rintro (h | ⟨es, hes, h⟩)
    · exact .misshapen h
    · rw [breaks_ofEntries] at h
      cases es with
      | nil => simp [TagsMisfit, Entries.get, Entries.get?, Value.isNull] at h
      | cons e es => exact .tags ((Value.section_ok (by simp)).1 hes) h
  · rintro (h | ⟨rfl, h⟩)
    · exact .inl h
    · rename_i es
      refine .inr ⟨es, ?_, breaks_ofEntries.2 h⟩
      cases es <;> rfl

theorem ofValue_listed (h : ofValue v = .ok k) : k.IsListed := by
  rw [ofValue_eq] at h
  obtain ⟨es, -, h⟩ := ok_of_bind h
  obtain ⟨tags, htags, h⟩ := ok_of_bind h
  cases h
  exact tagsOf_listed htags

end Conditions

/-! ### Destinations -/

namespace Destination

variable {v : Value} {es : Entries}

/-- A destination is no mapping, its adapter cannot be shown, or it has none and cannot be shown
itself. -/
inductive Misfits (v : Value) : Prop
  | misshapen (h : v.isMap = false)
  | unnamed {es : Entries} (hes : v = .map es) (hname : (Entries.get es "adapter").truthy = false)
    (h : v.isShowable = false)
  | adapter {es : Entries} (hes : v = .map es) (hname : (Entries.get es "adapter").truthy = true)
    (h : (Entries.get es "adapter").isShowable = false)

theorem ofValue_map (es : Entries) : ofValue (.map es) =
    if (Entries.get es "adapter").truthy then do
      let adapter ← (Entries.get es "adapter").shown
      pure ⟨adapter, (Entries.get? es "delay").getD (.int 0),
        Conditions.ifTruthy (Entries.get es "channel")⟩
    else failShowing (.map es) (.config (.destinationUnnamed es)) := rfl

theorem breaks_ofValue : Breaks (ofValue v) ↔ Misfits v := by
  cases v with
  | map es =>
    rw [ofValue_map]
    cases hname : (Entries.get es "adapter").truthy with
    | true =>
      simp only [↓reduceIte, bind_pure_comp, breaks_mapped, Value.breaks_shown]
      refine ⟨.adapter rfl hname, ?_⟩
      rintro (h | ⟨⟨⟩, hnone, -⟩ | ⟨⟨⟩, -, h⟩)
      · cases h
      · rw [hname] at hnone
        cases hnone
      · exact h
    | false =>
      rw [if_neg (by simp), breaks_failShowing]
      refine ⟨.unnamed rfl hname, ?_⟩
      rintro (h | ⟨⟨⟩, -, h⟩ | ⟨⟨⟩, hsome, -⟩)
      · cases h
      · exact h
      · rw [hname] at hsome
        cases hsome
  | _ => exact iff_of_true (breaks_bind.2 (.inl (breaks_faulty _))) (.misshapen rfl)

theorem ofValue_failsWith : FailsWith Error.IsInput (ofValue v) := by
  refine .bind Value.entries_uses.failsWith fun es => ?_
  dsimp only
  split
  · exact .bind Value.shown_uses.failsWith fun _ => .pure _
  · exact .failShowing trivial

theorem breaks_destinationsOf (vs : List Value) :
    Breaks (destinationsOf vs) ↔ FirstBreaks ofValue vs :=
  breaks_loop destinationsOf ofValue List.cons rfl (fun _ _ => rfl) vs

theorem destinationsOf_failsWith (vs : List Value) :
    FailsWith Error.IsInput (destinationsOf vs) := by
  induction vs with
  | nil => exact .ok []
  | cons v vs ih => exact .bind ofValue_failsWith fun _ => .bind ih fun _ => .pure _

end Destination

/-! ### Rules -/

namespace Rule

variable {now : Instant} {v : Value} {es : Entries} {rules : List Rule}

/-- What a value lists, nothing when it counts as false. -/
def listed (v : Value) : Outcome (List Value) := if v.truthy then v.items else .ok []

/-- The fields of a rule break: its name cannot be shown, its conditions are ill-typed, its
destinations are no row, or one of them breaks. -/
inductive FieldsBreak (es : Entries) : Prop
  | name (h : (Entries.get es "name").isShowable = false)
  | conditions (h : Conditions.Misfits (Entries.get es "if"))
  | publish (htruthy : (Entries.get es "publish").truthy = true)
    (h : (Entries.get es "publish").isRow = false)
  | destination {vs : List Value} (hvs : listed (Entries.get es "publish") = .ok vs)
    (h : FirstBreaks Destination.ofValue vs)

/-- A rule breaks: it is no mapping, it has no name and cannot be shown, its fields break, or one of
its delays. -/
inductive LoadBreaks (now : Instant) (v : Value) : Prop
  | misshapen (h : v.isMap = false)
  | unnamed {es : Entries} (hes : v = .map es) (hon : isEnabled es = true)
    (hname : (Entries.get es "name").truthy = false) (h : v.isShowable = false)
  | fields {es : Entries} (hes : v = .map es) (hon : isEnabled es = true)
    (hname : (Entries.get es "name").truthy = true) (h : FieldsBreak es)
  | delay {es : Entries} {r : Rule} (hes : v = .map es) (hon : isEnabled es = true)
    (hname : (Entries.get es "name").truthy = true) (hr : ofEntries es = .ok r)
    (h : FirstBreaks (fun d : Destination => Delay.parse now d.delay) r.publish)

theorem breaks_nameOf : Breaks (nameOf v) ↔ v.isShowable = false := by
  cases v <;> simp [nameOf, Value.breaks_shown, Value.isShowable]

theorem nameOf_uses : Uses (nameOf v) := by
  unfold nameOf
  split
  · exact .ok _
  · exact .bind Value.shown_uses fun _ => .pure _

theorem listed_uses : Uses (listed v) := by
  unfold listed
  split
  · exact Value.items_uses
  · exact .ok _

theorem breaks_listed : Breaks (listed v) ↔ v.truthy = true ∧ v.isRow = false := by
  unfold listed
  cases v.truthy <;> simp [Value.breaks_items]

theorem publishOf_eq (v : Value) : publishOf v = listed v >>= destinationsOf := by
  unfold publishOf listed
  dsimp only
  split <;> rfl

theorem breaks_publishOf : Breaks (publishOf v) ↔ (v.truthy = true ∧ v.isRow = false) ∨
    ∃ vs, listed v = .ok vs ∧ FirstBreaks Destination.ofValue vs := by
  rw [publishOf_eq, breaks_bind, breaks_listed]
  simp only [Destination.breaks_destinationsOf]

theorem publishOf_failsWith : FailsWith Error.IsInput (publishOf v) := by
  rw [publishOf_eq]
  exact .bind listed_uses.failsWith fun vs => Destination.destinationsOf_failsWith vs

theorem breaks_ofEntries : Breaks (ofEntries es) ↔ FieldsBreak es := by
  have hpublish : ∀ (name : Option String) (conditions : Conditions), Breaks (do
      let publish ← publishOf (Entries.get es "publish")
      pure (Rule.mk name conditions publish)) ↔ Breaks (publishOf (Entries.get es "publish")) :=
    fun _ _ => by simp
  have hparts : Breaks (ofEntries es) ↔ Breaks (nameOf (Entries.get es "name")) ∨
      Breaks (Conditions.ofValue (Entries.get es "if")) ∨
      Breaks (publishOf (Entries.get es "publish")) :=
    nameOf_uses.breaks_bind fun name => Conditions.ofValue_uses.breaks_bind (hpublish name)
  rw [hparts, breaks_nameOf, Conditions.breaks_ofValue, breaks_publishOf]
  constructor
  · rintro (h | h | ⟨htruthy, h⟩ | ⟨vs, hvs, h⟩)
    · exact .name h
    · exact .conditions h
    · exact .publish htruthy h
    · exact .destination hvs h
  · rintro (h | h | ⟨htruthy, h⟩ | ⟨hvs, h⟩)
    · exact .inl h
    · exact .inr (.inl h)
    · exact .inr (.inr (.inl ⟨htruthy, h⟩))
    · exact .inr (.inr (.inr ⟨_, hvs, h⟩))

theorem ofEntries_failsWith : FailsWith Error.IsInput (ofEntries es) :=
  .bind nameOf_uses.failsWith fun _ => .bind Conditions.ofValue_uses.failsWith fun _ =>
    .bind publishOf_failsWith fun _ => .pure _

theorem breaks_checkDelays (ds : List Destination) : Breaks (checkDelays now ds) ↔
    FirstBreaks (fun d : Destination => Delay.parse now d.delay) ds := by
  refine breaks_loop (checkDelays now) _ (fun _ u => u) rfl (fun d ds => ?_) ds
  rw [checkDelays]
  cases checkDelays now ds <;> rfl

theorem checkDelays_failsWith (ds : List Destination) :
    FailsWith Error.IsInput (checkDelays now ds) := by
  induction ds with
  | nil => exact .ok ()
  | cons d ds ih =>
    refine .bind (fun e he => ?_) fun _ => ih
    obtain rfl := Delay.parse_failsWith e he
    trivial

/-- Loading the fields of a rule that is switched on and has a name. -/
def loadFields (now : Instant) (es : Entries) : Outcome (Option Rule) := do
  let rule ← ofEntries es
  checkDelays now rule.publish
  pure (some rule)

theorem load_map (now : Instant) (es : Entries) : load now (.map es) =
    if isEnabled es = false then .ok none
    else if (Entries.get es "name").truthy = false
    then failShowing (.map es) (.config (.ruleUnnamed es))
    else loadFields now es := by
  show (if !isEnabled es then pure none else _) = _
  cases isEnabled es with
  | false => rfl
  | true =>
    simp only [Bool.not_true, Bool.false_eq_true, ↓reduceIte]
    cases (Entries.get es "name").truthy <;> rfl

theorem breaks_loadFields : Breaks (loadFields now es) ↔ FieldsBreak es ∨ ∃ r,
    ofEntries es = .ok r ∧
      FirstBreaks (fun d : Destination => Delay.parse now d.delay) r.publish := by
  unfold loadFields
  rw [breaks_bind, breaks_ofEntries]
  refine or_congr_right (exists_congr fun r => and_congr_right fun _ => ?_)
  rw [← breaks_checkDelays, breaks_bind]
  simp

theorem loadFields_failsWith : FailsWith Error.IsInput (loadFields now es) :=
  .bind ofEntries_failsWith fun _ => .bind (checkDelays_failsWith _) fun _ => .pure _

theorem breaks_load : Breaks (load now v) ↔ LoadBreaks now v := by
  cases v with
  | map es =>
    rw [load_map]
    constructor
    · intro h
      split at h
      · exact absurd h (not_breaks_ok _)
      · rename_i hon
        rw [Bool.not_eq_false] at hon
        split at h
        · rename_i hname
          exact .unnamed rfl hon hname (breaks_failShowing.1 h)
        · rename_i hname
          rw [Bool.not_eq_false] at hname
          rcases breaks_loadFields.1 h with h | ⟨r, hr, h⟩
          · exact .fields rfl hon hname h
          · exact .delay rfl hon hname hr h
    · rintro (h | ⟨⟨⟩, hon, hname, h⟩ | ⟨⟨⟩, hon, hname, h⟩ | ⟨⟨⟩, hon, hname, hr, h⟩)
      · cases h
      · rw [if_neg (by simp [hon]), if_pos hname]
        exact breaks_failShowing.2 h
      · rw [if_neg (by simp [hon]), if_neg (by simp [hname])]
        exact breaks_loadFields.2 (.inl h)
      · rw [if_neg (by simp [hon]), if_neg (by simp [hname])]
        exact breaks_loadFields.2 (.inr ⟨_, hr, h⟩)
  | _ => exact iff_of_true (breaks_bind.2 (.inl (breaks_faulty _))) (.misshapen rfl)

theorem load_failsWith : FailsWith Error.IsInput (load now v) := by
  cases v with
  | map es =>
    rw [load_map]
    split
    · exact .ok none
    · split
      · exact .failShowing trivial
      · exact loadFields_failsWith
  | _ => exact .faulty _

theorem breaks_loadEach (vs : List Value) : Breaks (loadEach now vs) ↔
    FirstBreaks (load now) vs :=
  breaks_loop (loadEach now) (load now) (fun r rs => r.toList ++ rs) rfl (fun _ _ => rfl) vs

theorem loadEach_failsWith (vs : List Value) : FailsWith Error.IsInput (loadEach now vs) := by
  induction vs with
  | nil => exact .ok []
  | cons v vs ih => exact .bind load_failsWith fun _ => .bind ih fun _ => .pure _

/-- Rules break when they are loaded: they are no row, or one breaks and something comes of all
those before. -/
inductive RowBreaks (now : Instant) (v : Value) : Prop
  | misshapen (h : v.isRow = false)
  | rule {before after : List Value} {entry : Value} (hvs : v.items = .ok (before ++ entry :: after))
    (hbefore : ∀ u ∈ before, ∃ r, load now u = .ok r) (hbreaks : LoadBreaks now entry)

theorem breaks_loadAll : Breaks (loadAll now v) ↔ RowBreaks now v := by
  unfold loadAll
  rw [breaks_bind, Value.breaks_items]
  constructor
  · rintro (h | ⟨vs, hvs, h⟩)
    · exact .misshapen h
    · obtain ⟨before, entry, after, rfl, hbefore, h⟩ := (breaks_loadEach vs).1 h
      exact .rule hvs hbefore (breaks_load.1 h)
  · rintro (h | ⟨hvs, hbefore, h⟩)
    · exact .inl h
    · exact .inr ⟨_, hvs, (breaks_loadEach _).2 ⟨_, _, _, rfl, hbefore, breaks_load.2 h⟩⟩

theorem loadAll_failsWith : FailsWith Error.IsInput (loadAll now v) :=
  .bind Value.items_uses.failsWith fun vs => loadEach_failsWith vs

/-! ### Loaded rules -/

/-- What holds of a rule that was loaded. -/
structure IsLoaded (now : Instant) (r : Rule) : Prop where
  listed : r.conditions.IsListed
  delays : ∀ d ∈ r.publish, ∃ n, Delay.parse now d.delay = .ok n

theorem delays_of_checkDelays {ds : List Destination} (h : checkDelays now ds = .ok ()) :
    ∀ d ∈ ds, ∃ n, Delay.parse now d.delay = .ok n := by
  induction ds with
  | nil => exact fun d hd => absurd hd List.not_mem_nil
  | cons d ds ih =>
    obtain ⟨n, hn, h⟩ := ok_of_bind h
    exact List.forall_mem_cons.2 ⟨⟨n, hn⟩, ih h⟩

theorem listed_of_ofEntries {r : Rule} (h : ofEntries es = .ok r) : r.conditions.IsListed := by
  obtain ⟨_, -, h⟩ := ok_of_bind h
  obtain ⟨conditions, hconditions, h⟩ := ok_of_bind h
  obtain ⟨_, -, h⟩ := ok_of_bind h
  cases h
  exact Conditions.ofValue_listed hconditions

theorem load_isLoaded {r : Rule} (h : load now v = .ok (some r)) : r.IsLoaded now := by
  obtain ⟨es, rfl⟩ : ∃ es, v = .map es := by
    cases v with
    | map es => exact ⟨es, rfl⟩
    | _ => cases h
  rw [load_map] at h
  split at h
  · cases h
  · split at h
    · unfold failShowing at h
      split at h <;> cases h
    · obtain ⟨rule, hrule, h⟩ := ok_of_bind h
      obtain ⟨_, hdelays, h⟩ := ok_of_bind h
      cases h
      exact ⟨listed_of_ofEntries hrule, delays_of_checkDelays hdelays⟩

theorem loadEach_isLoaded {vs : List Value} (h : loadEach now vs = .ok rules) :
    ∀ r ∈ rules, r.IsLoaded now := by
  induction vs generalizing rules with
  | nil =>
    cases h
    exact fun r hr => absurd hr List.not_mem_nil
  | cons v vs ih =>
    obtain ⟨rule, hrule, h⟩ := ok_of_bind h
    obtain ⟨rest, hrest, h⟩ := ok_of_bind h
    cases h
    intro r hr
    rcases List.mem_append.1 hr with hr | hr
    · obtain rfl := Option.mem_toList.1 hr
      exact load_isLoaded hrule
    · exact ih hrest r hr

theorem loadAll_isLoaded (h : loadAll now v = .ok rules) : ∀ r ∈ rules, r.IsLoaded now := by
  obtain ⟨vs, -, h⟩ := ok_of_bind h
  exact loadEach_isLoaded h

end Rule

end Syndicate
