import Syndicate.Proofs.Conditions
import Syndicate.Proofs.Routing.Enabled

/-! Rules from which the keys that are bound to null were removed, on all three levels: in the rule
itself, in its conditions and in its destinations. Null says there what a missing key says, except
in four places, which `Rule.NullSpeaks` lists. -/

namespace Syndicate

open Outcome (Akin Parted)

/-! ### Values without their nulls -/

namespace Value

/-- A mapping without the keys that are bound to null. -/
def present : Value → Value
  | .map es => .map (Entries.present es)
  | v => v

/-- A list whose mappings have no keys that are bound to null. -/
def presentEach : Value → Value
  | .list vs => .list (vs.map present)
  | v => v

end Value

/-! ### Conditions -/

namespace Conditions

variable {es : Entries}

/-- Of the two keys that may ask for media the first is bound to null and the second is not. -/
def MediaSpeaks (es : Entries) : Prop :=
  Entries.get? es "hasMedia" = some .null ∧ Entries.get es "has_media" ≠ .null

theorem hasMediaOf_present : hasMediaOf es.present = hasMediaOf es ↔ ¬ MediaSpeaks es := by
  have hkept : keptMedia (Entries.get es "has_media") = keptMedia .null ↔
      Entries.get es "has_media" = .null := by
    unfold keptMedia
    cases Entries.get es "has_media" <;> simp [Value.isNull]
  unfold MediaSpeaks
  rw [hasMediaOf_eq, hasMediaOf_eq, Entries.get?_present, Entries.get_present]
  cases Entries.get? es "hasMedia" with
  | none => simp
  | some v =>
    cases v with
    | null => simpa [Option.filter, Value.isNull] using hkept
    | _ => simp [Option.filter, Value.isNull]

/-- Null under the first key hides what is under the second. -/
example : hasMediaOf [(.text "hasMedia", .null), (.text "has_media", .bool true)] = .null ∧
    hasMediaOf (Entries.present [(.text "hasMedia", .null), (.text "has_media", .bool true)]) =
      .bool true := ⟨rfl, rfl⟩

/-- Without nulls conditions are the same, but for those on media. -/
theorem ofEntries_present (es : Entries) : ofEntries es.present =
    (ofEntries es).map fun k => { k with hasMedia := hasMediaOf es.present } := by
  unfold ofEntries
  simp only [Entries.get_present]
  cases tagsOf (Entries.get es "tags") <;> rfl

theorem hasMedia_of_ofEntries {k : Conditions} (h : ofEntries es = .ok k) :
    k.hasMedia = hasMediaOf es := by
  obtain ⟨tags, -, h⟩ := ok_of_bind h
  cases h
  rfl

/-- A null that speaks in conditions. -/
def NullSpeaks (v : Value) : Prop := ∃ es, v = .map es ∧ MediaSpeaks es

theorem ofValue_present {v : Value} (h : ¬ NullSpeaks v) : ofValue v.present = ofValue v := by
  cases v with
  | map es =>
    have hmedia := hasMediaOf_present.2 fun hes => h ⟨es, rfl, hes⟩
    rw [Value.present, ofValue_map, ofValue_map, ofEntries_present, hmedia]
    cases hk : ofEntries es with
    | error f => rfl
    | ok k =>
      rw [← hasMedia_of_ofEntries hk]
      rfl
  | _ => rfl

theorem ofValue_akin (v : Value) :
    Akin (fun _ _ => True) (ofValue v) (ofValue v.present) := by
  cases v with
  | map es =>
    rw [Value.present, ofValue_map, ofValue_map, ofEntries_present]
    cases ofEntries es with
    | error f => exact .error rfl
    | ok k => exact .ok trivial
  | _ => exact .refl (fun _ => trivial) _

end Conditions

/-! ### Destinations -/

namespace Destination

/-- The same destination, whether its delay is null or none. -/
structure Same (d e : Destination) : Prop where
  adapter : e.adapter = d.adapter
  delay : ∀ now, Delay.parse now e.delay = Delay.parse now d.delay
  channel : e.channel = d.channel

theorem Same.refl (d : Destination) : Same d d := ⟨rfl, fun _ => rfl, rfl⟩

/-- A null that speaks in a destination: no adapter is named, and whether the destination can be
shown depends on a key that is bound to null. -/
def NullSpeaks (v : Value) : Prop := ∃ es, v = .map es ∧
  (Entries.get es "adapter").truthy = false ∧ v.isShowable ≠ v.present.isShowable

theorem ofValue_akin {v : Value} (h : ¬ NullSpeaks v) :
    Akin Same (ofValue v) (ofValue v.present) := by
  cases v with
  | map es =>
    rw [Value.present, ofValue_map, ofValue_map, Entries.get_present, Entries.get_present]
    cases hadapter : (Entries.get es "adapter").truthy with
    | false =>
      refine Outcome.failShowing_akin ?_
      by_contra hne
      exact h ⟨es, rfl, hadapter, hne⟩
    | true =>
      refine Akin.after _ fun adapter _ => .ok ⟨rfl, fun now => ?_, rfl⟩
      rw [Entries.get?_present]
      cases Entries.get? es "delay" with
      | none => rfl
      | some delay => cases delay <;> rfl
  | _ => exact .refl .refl _

theorem ofValue_parted {v : Value} (h : NullSpeaks v) :
    Parted (ofValue v) (ofValue v.present) := by
  obtain ⟨es, rfl, hadapter, hne⟩ := h
  rw [Value.present, ofValue_map, ofValue_map, Entries.get_present, hadapter]
  exact Outcome.failShowing_parted hne

/-- A null speaks in a row of destinations, all before being readable. -/
inductive RowSpeaks : List Value → Prop
  | here {v : Value} {vs : List Value} (h : NullSpeaks v) : RowSpeaks (v :: vs)
  | later {v : Value} {vs : List Value} {d : Destination} (hd : ofValue v = .ok d)
    (h : RowSpeaks vs) : RowSpeaks (v :: vs)

theorem destinationsOf_akin {vs : List Value} (h : ¬ RowSpeaks vs) :
    Akin (List.Forall₂ Same) (destinationsOf vs) (destinationsOf (vs.map Value.present)) := by
  induction vs with
  | nil => exact .ok .nil
  | cons v vs ih =>
    have hfirst := ofValue_akin fun hv => h (.here hv)
    refine hfirst.bind fun d e hd hde => ?_
    exact (ih fun hvs => h (.later hd hvs)).bind fun ds es _ hds => .ok (.cons hde hds)

theorem destinationsOf_parted {vs : List Value} (h : RowSpeaks vs) :
    Parted (destinationsOf vs) (destinationsOf (vs.map Value.present)) := by
  induction h with
  | here h => exact (ofValue_parted h).bind _ _
  | @later v vs d hd _ ih =>
    have hfirst : Akin Same (ofValue v) (ofValue v.present) := ofValue_akin fun hv => by
      obtain ⟨e, _, he, -⟩ := ofValue_parted hv
      rw [hd] at he
      cases he
    rw [hd] at hfirst
    obtain ⟨e, he, -⟩ := hfirst.of_ok
    rw [List.map_cons, destinationsOf, destinationsOf, hd, he]
    exact ih.bind _ _

theorem checkDelays_same {now : Instant} {ds es : List Destination}
    (h : List.Forall₂ Same ds es) : Rule.checkDelays now es = Rule.checkDelays now ds := by
  induction h with
  | nil => rfl
  | cons hde _ ih => rw [Rule.checkDelays, Rule.checkDelays, ih, hde.delay]

end Destination

/-! ### Rules -/

namespace Rule

variable {loaded : Instant} {v : Value} {es : Entries}

/-- The same rule, but for related conditions. -/
structure Same (R : Conditions → Conditions → Prop) (r q : Rule) : Prop where
  name : q.name = r.name
  conditions : R r.conditions q.conditions
  publish : List.Forall₂ Destination.Same r.publish q.publish

/-- The keys of a rule that are not bound to null, with conditions and destinations that have no
such keys either. -/
def prunedEntries (es : Entries) : Entries :=
  Entries.present <|
    Entries.adjust "publish" Value.presentEach (Entries.adjust "if" Value.present es)

/-- A rule without its nulls. -/
def pruned : Value → Value
  | .map es => .map (prunedEntries es)
  | v => v

/-- A null speaks in a rule. -/
inductive NullSpeaks (loaded : Instant) (v : Value) : Prop
  /-- It is bound to the key that switches a rule off. -/
  | switch {es : Entries} (hes : v = .map es) (h : Entries.get? es "enabled" = some .null)
  /-- The rule has no name, and whether it can be shown depends on the null. -/
  | unnamed {es : Entries} (hes : v = .map es) (hon : isEnabled es = true)
    (hname : (Entries.get es "name").truthy = false) (h : v.isShowable ≠ (pruned v).isShowable)
  /-- The rule is loaded, and the null stands in the way of the other key for media. -/
  | media {es : Entries} {r : Rule} (hes : v = .map es) (hr : load loaded v = .ok (some r))
    (h : Conditions.NullSpeaks (Entries.get es "if"))
  /-- It is in the first destination that cannot be read. -/
  | unrouted {es : Entries} {name : Option String} {k : Conditions} {vs : List Value}
    (hes : v = .map es) (hon : isEnabled es = true)
    (hnamed : (Entries.get es "name").truthy = true)
    (hname : nameOf (Entries.get es "name") = .ok name)
    (hk : Conditions.ofValue (Entries.get es "if") = .ok k)
    (hvs : Entries.get es "publish" = .list vs) (h : Destination.RowSpeaks vs)

theorem get_pruned (es : Entries) (key : String) : Entries.get (prunedEntries es) key =
    if key = "publish" then (Entries.get es key).presentEach
    else if key = "if" then (Entries.get es key).present else Entries.get es key := by
  rw [prunedEntries, Entries.get_present, Entries.get_adjust _ _ rfl, Entries.get_adjust _ _ rfl]
  by_cases h : key = "publish"
  · subst h
    simp
  · simp only [h, ↓reduceIte]

theorem get_pruned_name (es : Entries) :
    Entries.get (prunedEntries es) "name" = Entries.get es "name" := by
  rw [get_pruned, if_neg (by decide), if_neg (by decide)]

theorem get_pruned_if (es : Entries) :
    Entries.get (prunedEntries es) "if" = (Entries.get es "if").present := by
  rw [get_pruned, if_neg (by decide), if_pos rfl]

theorem get_pruned_publish (es : Entries) :
    Entries.get (prunedEntries es) "publish" = (Entries.get es "publish").presentEach := by
  rw [get_pruned, if_pos rfl]

/-- A rule without nulls is on if it was, or if a null had switched it off. -/
theorem isEnabled_pruned : isEnabled (prunedEntries es) = true ↔
    isEnabled es = true ∨ Entries.get? es "enabled" = some .null := by
  unfold isEnabled prunedEntries
  rw [Entries.get?_present, Entries.get?_adjust, Entries.get?_adjust]
  cases Entries.get? es "enabled" with
  | none => simp
  | some v => cases v <;> simp [Option.filter, Value.isNull, Value.truthy]

theorem publishOf_list (vs : List Value) : publishOf (.list vs) = destinationsOf vs := by
  cases vs <;> rfl

theorem publishOf_akin (h : ∀ vs, v = .list vs → ¬ Destination.RowSpeaks vs) :
    Akin (List.Forall₂ Destination.Same) (publishOf v) (publishOf v.presentEach) := by
  have hrefl : ∀ ds, List.Forall₂ Destination.Same ds ds := fun ds =>
    List.forall₂_same.2 fun d _ => .refl d
  cases v with
  | list vs =>
    rw [Value.presentEach, publishOf_list, publishOf_list]
    exact Destination.destinationsOf_akin (h vs rfl)
  | _ => exact .refl hrefl _

theorem ofEntries_eq (es : Entries) : ofEntries es =
    nameOf (Entries.get es "name") >>= fun name => Conditions.ofValue (Entries.get es "if") >>=
      fun k => publishOf (Entries.get es "publish") >>= fun ds => pure ⟨name, k, ds⟩ := rfl

theorem loadFields_akin {R : Conditions → Conditions → Prop}
    (hk : Akin R (Conditions.ofValue (Entries.get es "if"))
      (Conditions.ofValue (Entries.get es "if").present))
    (hvs : ∀ name k vs, nameOf (Entries.get es "name") = .ok name →
      Conditions.ofValue (Entries.get es "if") = .ok k →
      Entries.get es "publish" = .list vs → ¬ Destination.RowSpeaks vs) :
    Akin (Option.Rel (Same R)) (loadFields loaded es) (loadFields loaded (prunedEntries es)) := by
  have hfields : Akin (Same R) (ofEntries es) (ofEntries (prunedEntries es)) := by
    rw [ofEntries_eq, ofEntries_eq, get_pruned_name, get_pruned_if, get_pruned_publish]
    refine Akin.after _ fun name hname => ?_
    refine hk.bind fun k k' hk hkk => ?_
    exact (publishOf_akin (hvs name k · hname hk)).bind fun ds es _ hds => .ok ⟨rfl, hkk, hds⟩
  refine hfields.bind fun r q _ hrq => ?_
  rw [Destination.checkDelays_same hrq.publish]
  exact Akin.after _ fun _ _ => .ok (.some hrq)

theorem load_off (hoff : isEnabled es = false) : load loaded (.map es) = .ok none := by
  rw [load_map, if_pos hoff]

theorem load_unnamed (hon : isEnabled es = true) (hname : (Entries.get es "name").truthy = false) :
    load loaded (.map es) = failShowing (.map es) (.config (.ruleUnnamed es)) := by
  rw [load_map, hon, hname]
  rfl

theorem load_named (hon : isEnabled es = true) (hname : (Entries.get es "name").truthy = true) :
    load loaded (.map es) = loadFields loaded es := by
  rw [load_map, hon, hname]
  rfl

/-- If no null speaks in a rule that is on and has a name, its fields are loaded alike. -/
theorem loadFields_same (h : ¬ NullSpeaks loaded (.map es)) (hon : isEnabled es = true)
    (hnamed : (Entries.get es "name").truthy = true) : Akin (Option.Rel (Same (· = ·)))
      (loadFields loaded es) (loadFields loaded (prunedEntries es)) := by
  have hrow : ∀ name k vs, nameOf (Entries.get es "name") = .ok name →
      Conditions.ofValue (Entries.get es "if") = .ok k →
      Entries.get es "publish" = .list vs → ¬ Destination.RowSpeaks vs :=
    fun name k vs hname hk hvs hspeaks => h (.unrouted rfl hon hnamed hname hk hvs hspeaks)
  by_cases hif : Conditions.NullSpeaks (Entries.get es "if")
  · -- The conditions differ, but then no rule is loaded on either side.
    refine (loadFields_akin (Conditions.ofValue_akin _) hrow).strengthen ?_
    rintro (_ | r) b hr hrq
    · cases hrq
      exact .none
    · exact absurd (.media rfl ((load_named hon hnamed).trans hr) hif) h
  · refine loadFields_akin ?_ hrow
    rw [Conditions.ofValue_present hif]
    exact .refl (fun _ => rfl) _

/-- A rule in which no null speaks is loaded alike without its nulls. -/
theorem load_akin (h : ¬ NullSpeaks loaded v) :
    Akin (Option.Rel (Same (· = ·))) (load loaded v) (load loaded (pruned v)) := by
  cases v with
  | map es =>
    have hname := get_pruned_name es
    rw [pruned]
    cases hon : isEnabled es with
    | false =>
      have hoff : isEnabled (prunedEntries es) = false := by
        have hswitch : Entries.get? es "enabled" ≠ some .null := fun he => h (.switch rfl he)
        rw [← Bool.not_eq_true, isEnabled_pruned, hon]
        simp [hswitch]
      rw [load_off hon, load_off hoff]
      exact .ok .none
    | true =>
      have hon' := isEnabled_pruned.2 (.inl hon)
      cases hnamed : (Entries.get es "name").truthy with
      | false =>
        rw [load_unnamed hon hnamed, load_unnamed hon' (by rw [hname, hnamed])]
        refine Outcome.failShowing_akin ?_
        by_contra hne
        exact h (.unnamed rfl hon hnamed hne)
      | true =>
        rw [load_named hon hnamed, load_named hon' (by rw [hname, hnamed])]
        exact loadFields_same h hon hnamed
  | _ => exact .error rfl

theorem conditions_of_load {r : Rule} (h : load loaded (.map es) = .ok (some r)) :
    Conditions.ofValue (Entries.get es "if") = .ok r.conditions := by
  obtain ⟨-, hnone⟩ | ⟨-, _, hsome, h⟩ := load_cases h
  · cases hnone
  · cases hsome
    obtain ⟨_, -, h⟩ := ok_of_bind (show ofEntries es = .ok r from h)
    obtain ⟨k, hk, h⟩ := ok_of_bind h
    obtain ⟨_, -, h⟩ := ok_of_bind h
    cases h
    exact hk

/-- A rule in which a null speaks is loaded otherwise without its nulls. -/
theorem load_not_akin (h : NullSpeaks loaded v) :
    ¬ Akin (Option.Rel (Same (· = ·))) (load loaded v) (load loaded (pruned v)) := by
  cases h with
  | @switch es hes hnull =>
    subst hes
    intro h
    rw [load_off (by simp [isEnabled, hnull, Value.truthy])] at h
    obtain ⟨_, hpruned, hnone⟩ := h.of_ok
    cases hnone
    obtain ⟨hoff, -⟩ | ⟨-, _, hsome, -⟩ := load_cases hpruned
    · simp [pruned, isOff, isEnabled_pruned.2 (.inr hnull)] at hoff
    · cases hsome
  | @unnamed es hes hon hname hne =>
    subst hes
    rw [pruned, load_unnamed hon hname,
      load_unnamed (isEnabled_pruned.2 (.inl hon)) (by rw [get_pruned_name, hname])]
    exact (Outcome.failShowing_parted hne).not_akin
  | @media es r hes hr hmedia =>
    subst hes
    intro h
    rw [hr] at h
    obtain ⟨_, hpruned, hrq⟩ := h.of_ok
    cases hrq with
    | @some _ q hrq =>
      obtain ⟨fs, hfs, hmedia⟩ := hmedia
      have hk := conditions_of_load hr
      have hk' := conditions_of_load hpruned
      rw [get_pruned_if, ← hrq.conditions] at hk'
      rw [hfs, Conditions.ofValue_map] at hk
      rw [hfs, Value.present, Conditions.ofValue_map] at hk'
      have hsame := (Conditions.hasMedia_of_ofEntries hk').symm.trans
        (Conditions.hasMedia_of_ofEntries hk)
      exact Conditions.hasMediaOf_present.1 hsame hmedia
  | @unrouted es name k vs hes hon hnamed hname hk hvs hspeaks =>
    subst hes
    have hconditions := Conditions.ofValue_akin (Entries.get es "if")
    rw [hk] at hconditions
    obtain ⟨k', hk', -⟩ := hconditions.of_ok
    have hfields : Parted (ofEntries es) (ofEntries (prunedEntries es)) := by
      rw [ofEntries_eq, ofEntries_eq, get_pruned_name, get_pruned_if, get_pruned_publish, hname, hk,
        hk', hvs, Value.presentEach, publishOf_list, publishOf_list]
      exact (Destination.destinationsOf_parted hspeaks).bind _ _
    rw [pruned, load_named hon hnamed,
      load_named (isEnabled_pruned.2 (.inl hon)) (by rw [get_pruned_name, hnamed])]
    exact (hfields.bind _ _).not_akin

/-- Rules in none of which a null speaks are loaded alike without their nulls. -/
theorem loadEach_akin {vs : List Value} (h : ∀ v ∈ vs, ¬ NullSpeaks loaded v) :
    Akin (List.Forall₂ (Same (· = ·))) (loadEach loaded vs) (loadEach loaded (vs.map pruned)) := by
  induction vs with
  | nil => exact .ok .nil
  | cons v vs ih =>
    obtain ⟨hv, hvs⟩ := List.forall_mem_cons.1 h
    refine (load_akin hv).bind fun r q _ hrq => ?_
    refine (ih hvs).bind fun rs qs _ hrest => .ok ?_
    cases hrq with
    | none => exact hrest
    | some hrq => exact .cons hrq hrest

end Rule

end Syndicate
