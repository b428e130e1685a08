import Syndicate.Dispatch
import Syndicate.Proofs.Adapter

/-! How the world moves on: posts are added to those there were, each with what its adapter came to,
events are told, and the ids of the adapters stay as they are. -/

namespace Syndicate

theorem Registry.lookup_cons (n m : String) (a : Adapter) (r : Registry) :
    List.lookup m ((n, a) :: r) = if m = n then some a else r.lookup m := by
  by_cases h : m = n
  · simp [h]
  · simp [List.lookup_cons, beq_false_of_ne h, h]

theorem Registry.lookup_put (r : Registry) (n m : String) (a : Adapter) :
    (r.put n a).lookup m = if m = n then some a else r.lookup m := by
  induction r with
  | nil => rw [Registry.put, Registry.lookup_cons]
  | cons e r ih =>
    obtain ⟨l, b⟩ := e
    rw [Registry.put]
    by_cases hl : l = n
    · rw [if_pos hl, Registry.lookup_cons, Registry.lookup_cons, hl]
      split <;> rfl
    · rw [if_neg hl, Registry.lookup_cons, Registry.lookup_cons, ih]
      by_cases h : m = l
      · rw [if_pos h, if_neg (h ▸ hl), if_pos h]
      · rw [if_neg h, if_neg h]

/-- Related adapters are put under a name of two registries. -/
theorem Registry.lookup_put_rel {P : Adapter → Adapter → Prop} {r r' : Registry} {a b : Adapter}
    (h : ∀ name, Option.Rel P (r.lookup name) (r'.lookup name)) (hab : P a b)
    (name other : String) :
    Option.Rel P ((r.put name a).lookup other) ((r'.put name b).lookup other) := by
  rw [Registry.lookup_put, Registry.lookup_put]
  split
  · exact .some hab
  · exact h other

theorem Adapter.id_enter (a : Adapter) : a.enter.id = a.id := by
  cases a <;> rfl

namespace World

variable {w w' w'' : World} {ps ps' : List Posting} {es es' : List Event} {α : Type}

/-- Another adapter of the same id in the place of one changes no id. -/
theorem adapterId_put {name : String} {a b : Adapter} (h : w.adapter name = .ok a)
    (hb : b.id = a.id) (site : Site) (other : String) :
    ({ w with adapters := w.adapters.put name b, site := site } : World).adapterId other =
      w.adapterId other := by
  simp only [adapterId, adapter, Registry.lookup_put] at h ⊢
  by_cases ho : other = name
  · subst ho
    split at h
    · rename_i c hc
      cases h
      simp only [↓reduceIte]
      exact hb
    · cases h
  · simp only [ho, ↓reduceIte]

theorem outcome_at_error {name : String} {f : Failure} (h : w.adapter name = .error f)
    (x : Act Station α) : (at_ name x).outcome w = (.error f, w) := by
  simp only [Act.outcome, at_, EStateM.run, h]

theorem outcome_at_ok {name : String} {a : Adapter} (h : w.adapter name = .ok a)
    (x : Act Station α) : (at_ name x).outcome w = ((x.outcome ⟨a, w.site⟩).1,
      { w with
        adapters := w.adapters.put name (x.outcome ⟨a, w.site⟩).2.adapter
        site := (x.outcome ⟨a, w.site⟩).2.site }) := by
  simp only [Act.outcome, at_, EStateM.run, h]
  cases x ⟨a, w.site⟩ <;> rfl

/-- What a quiet operation of an adapter leaves alone. -/
theorem quiet_at (w : World) (name : String) {x : Act Station α}
    (hx : Act.Keeps Station.Quiet x) : ((at_ name x).outcome w).2.posts = w.posts ∧
      (∀ other, ((at_ name x).outcome w).2.adapterId other = w.adapterId other) ∧
      w.site.journal.Tells [] ((at_ name x).outcome w).2.site.journal := by
  cases h : w.adapter name with
  | error f =>
    rw [outcome_at_error h]
    exact ⟨rfl, fun _ => rfl, Journal.Tells.refl _⟩
  | ok a =>
    have hq := hx ⟨a, w.site⟩
    rw [outcome_at_ok h]
    exact ⟨rfl, adapterId_put h hq.id _, hq.site⟩

theorem pace_at (w : World) (name : String) (x : Act Station α) :
    ((at_ name x).outcome w).2.pace = w.pace := by
  cases h : w.adapter name with
  | error f => rw [outcome_at_error h]
  | ok a => rw [outcome_at_ok h]

theorem outcome_post (w : World) (t : Task) (clock : Nat) :
    (post t clock).outcome w =
      (((at_ t.adapter (Station.publish clock t.content)).outcome w).1,
        ((at_ t.adapter (Station.publish clock t.content)).outcome w).2.note t
          (.ended ((at_ t.adapter (Station.publish clock t.content)).outcome w).1)) := by
  simp only [Act.outcome, post, EStateM.run]
  cases at_ t.adapter (Station.publish clock t.content) w <;> rfl

theorem enter_of_error {name : String} {f : Failure} (h : w.adapter name = .error f) :
    w.enter name = w := by
  simp only [enter, h]

theorem enter_of_ok {name : String} {a : Adapter} (h : w.adapter name = .ok a) :
    w.enter name = { w with adapters := w.adapters.put name a.enter } := by
  simp only [enter, h]

theorem enter_posts (w : World) (name : String) : (w.enter name).posts = w.posts := by
  cases h : w.adapter name with
  | error f => rw [enter_of_error h]
  | ok a => rw [enter_of_ok h]

theorem enter_site (w : World) (name : String) : (w.enter name).site = w.site := by
  cases h : w.adapter name with
  | error f => rw [enter_of_error h]
  | ok a => rw [enter_of_ok h]

theorem enter_pace (w : World) (name : String) : (w.enter name).pace = w.pace := by
  cases h : w.adapter name with
  | error f => rw [enter_of_error h]
  | ok a => rw [enter_of_ok h]

theorem adapterId_enter (w : World) (name other : String) :
    (w.enter name).adapterId other = w.adapterId other := by
  cases h : w.adapter name with
  | error f => rw [enter_of_error h]
  | ok a =>
    rw [enter_of_ok h]
    exact adapterId_put h a.id_enter w.site other

/-! ### What happens to a world -/

/-- One thing that happens to a world, and the stages of posts that it is. A post ends when its
adapter publishes the content of its task, and it has come to what that comes to. -/
inductive Step (w : World) : List Posting → World → Prop
  | tells (e : Event) : Step w [] (w.emit e)
  | writes (r : Record) (h : r.source ≠ "core.diagnostics") : Step w [] (w.write r)
  | verifies (name : String) : Step w [] ((at_ name Station.verify).outcome w).2
  | begins (t : Task) : Step w [⟨t, .begun⟩] (w.begin t)
  | ends (t : Task) (clock : Nat) :
    Step w [⟨t, .ended ((at_ t.adapter (Station.publish clock t.content)).outcome w).1⟩]
      (((at_ t.adapter (Station.publish clock t.content)).outcome w).2.note t
        (.ended ((at_ t.adapter (Station.publish clock t.content)).outcome w).1))

/-- One thing after the other happens to a world, and with it these stages of posts. -/
inductive Course (u : World) : List Posting → World → Prop
  | refl : Course u [] u
  | snoc {v w : World} {ps qs : List Posting} (h : Course u ps v) (hs : Step v qs w) :
    Course u (ps ++ qs) w

/-- A step adds its stages to the posts there were, the ids of adapters stay, and what was published
can be shown. -/
theorem Step.keeps (h : w.Step ps w') : w'.posts = w.posts ++ ps ∧
    (∀ name, w'.adapterId name = w.adapterId name) ∧
    ∀ p ∈ ps, ∀ ref, p.stage = .ended (.ok ref) → ref.IsPlain := by
  cases h with
  | tells | writes => exact ⟨by simp [emit, write], fun _ => rfl, by simp⟩
  | verifies name =>
    obtain ⟨hposts, hids, -⟩ := w.quiet_at name Station.verify_quiet
    exact ⟨by simpa using hposts, hids, by simp⟩
  | begins t => exact ⟨by simp [begin, enter_posts, note], adapterId_enter _ t.adapter, by simp⟩
  | ends t clock =>
    obtain ⟨hposts, hids, -⟩ := w.quiet_at t.adapter (Station.publish_quiet clock t.content)
    refine ⟨by rw [note, hposts], hids, fun p hp ref hstage => ?_⟩
    obtain rfl := List.mem_singleton.1 hp
    rw [Stage.ended.injEq] at hstage
    cases ha : w.adapter t.adapter with
    | error f => rw [outcome_at_error ha] at hstage; cases hstage
    | ok a =>
      rw [outcome_at_ok ha] at hstage
      exact Station.publish_plain clock t.content _ ref hstage

theorem Step.pace (h : w.Step ps w') : w'.pace = w.pace := by
  cases h with
  | tells | writes => rfl
  | verifies name => exact w.pace_at name _
  | begins t => exact enter_pace _ t.adapter
  | ends t clock => exact w.pace_at t.adapter _

theorem Step.short (h : w.Step ps w') : ps = [] ∨ ∃ p, ps = [p] := by
  cases h with
  | tells | writes | verifies => exact .inl rfl
  | begins | ends => exact .inr ⟨_, rfl⟩

theorem Step.of_ended {t : Task} {o : Outcome PostRef} (h : w.Step [⟨t, .ended o⟩] w') :
    ∃ clock, o = ((at_ t.adapter (Station.publish clock t.content)).outcome w).1 := by
  cases h with
  | ends _ clock => exact ⟨clock, rfl⟩

namespace Course

theorem trans (h : w.Course ps w') (h' : w'.Course ps' w'') : w.Course (ps ++ ps') w'' := by
  induction h' with
  | refl => rwa [List.append_nil]
  | snoc _ hs ih => rw [← List.append_assoc]; exact ih.snoc hs

theorem of_step (h : w.Step ps w') : w.Course ps w' := Course.refl.snoc h

theorem posts (h : w.Course ps w') : w'.posts = w.posts ++ ps := by
  induction h with
  | refl => rw [List.append_nil]
  | snoc _ hs ih => rw [hs.keeps.1, ih, List.append_assoc]

theorem ids (h : w.Course ps w') (name : String) : w'.adapterId name = w.adapterId name := by
  induction h with
  | refl => rfl
  | snoc _ hs ih => rw [hs.keeps.2.1, ih]

theorem pace (h : w.Course ps w') : w'.pace = w.pace := by
  induction h with
  | refl => rfl
  | snoc _ hs ih => rw [hs.pace, ih]

theorem plain (h : w.Course ps w') : ∀ p ∈ ps, ∀ ref, p.stage = .ended (.ok ref) → ref.IsPlain := by
  induction h with
  | refl => simp
  | snoc _ hs ih =>
    intro p hp
    rcases List.mem_append.1 hp with hp | hp
    · exact ih p hp
    · exact hs.keeps.2.2 p hp

/-- A post that has ended came to what its adapter, in the world that there was then, came to when it
published the content of its task. -/
theorem of_ended {before after : List Posting} {t : Task} {o : Outcome PostRef}
    (h : w.Course ps w') (hps : ps = before ++ ⟨t, .ended o⟩ :: after) : ∃ u clock,
    w.Course before u ∧ o = ((at_ t.adapter (Station.publish clock t.content)).outcome u).1 := by
  induction h generalizing after with
  | refl => simp at hps
  | snoc h hs ih =>
    -- Either the post had ended before the last step, or that step is its end.
    rcases hs.short with rfl | ⟨p, rfl⟩
    · exact ih (by rwa [List.append_nil] at hps)
    · rcases List.eq_nil_or_concat after with rfl | ⟨rest, last, rfl⟩
      · obtain ⟨rfl, hlast⟩ := List.append_inj' hps rfl
        obtain rfl := List.singleton_inj.1 hlast
        obtain ⟨clock, ho⟩ := hs.of_ended
        exact ⟨_, clock, h, ho⟩
      · rw [List.concat_eq_append, ← List.cons_append, ← List.append_assoc] at hps
        exact ih (List.append_inj' hps rfl).1

end Course

/-- From a world to a later one posts got to some stages and some events were told, in this order. -/
structure Leads (w : World) (ps : List Posting) (es : List Event) (w' : World) : Prop where
  course : w.Course ps w'
  journal : w.site.journal.Tells es w'.site.journal

theorem Leads.posts (h : w.Leads ps es w') : w'.posts = w.posts ++ ps := h.course.posts

theorem Leads.ids (h : w.Leads ps es w') (name : String) : w'.adapterId name = w.adapterId name :=
  h.course.ids name

theorem Leads.plain (h : w.Leads ps es w') :
    ∀ p ∈ ps, ∀ ref, p.stage = .ended (.ok ref) → ref.IsPlain :=
  h.course.plain

theorem Leads.refl (w : World) : w.Leads [] [] w := ⟨.refl, Journal.Tells.refl _⟩

theorem Leads.trans (h : w.Leads ps es w') (h' : w'.Leads ps' es' w'') :
    w.Leads (ps ++ ps') (es ++ es') w'' :=
  ⟨h.course.trans h'.course, h.journal.trans h'.journal⟩

theorem leads_emit (w : World) (e : Event) : w.Leads [] [e] (w.emit e) :=
  ⟨.of_step (.tells e), Journal.Tells.emit _ e⟩

theorem leads_write (w : World) {r : Record} (h : r.source ≠ "core.diagnostics") :
    w.Leads [] [] (w.write r) :=
  ⟨.of_step (.writes r h), Journal.Tells.write _ h⟩

theorem leads_verify (w : World) (name : String) :
    w.Leads [] [] ((at_ name Station.verify).outcome w).2 :=
  ⟨.of_step (.verifies name), (w.quiet_at name Station.verify_quiet).2.2⟩

/-! ### Two worlds with related adapters -/

section Related

variable {P : Adapter → Adapter → Prop} {u v : World} {name : String}

/-- There is an adapter under a name in both worlds or in none. -/
theorem adapter_rel (h : Option.Rel P (u.adapters.lookup name) (v.adapters.lookup name)) :
    Outcome.Rel P (u.adapter name) (v.adapter name) := by
  unfold adapter
  generalize u.adapters.lookup name = o at h ⊢
  generalize v.adapters.lookup name = o' at h ⊢
  cases h with
  | none => exact .error _
  | some hab => exact .ok hab

theorem adapterId_eq_of_rel (h : Outcome.Rel P (u.adapter name) (v.adapter name))
    (hid : ∀ a b, P a b → b.id = a.id) : v.adapterId name = u.adapterId name := by
  unfold adapterId
  generalize u.adapter name = x at h ⊢
  generalize v.adapter name = y at h ⊢
  cases h with
  | ok hab => exact hid _ _ hab
  | error f => rfl

theorem rest?_eq_of_rel (h : Outcome.Rel P (u.adapter name) (v.adapter name))
    (hrest : ∀ a b, P a b → b.rest? = a.rest?) : v.rest? name = u.rest? name := by
  unfold rest?
  generalize u.adapter name = x at h ⊢
  generalize v.adapter name = y at h ⊢
  cases h with
  | ok hab => exact hrest _ _ hab
  | error f => rfl

variable {R : World → World → Prop}

/-- A post begins in both worlds or in none. -/
theorem enter_rel (h : Outcome.Rel P (u.adapter name) (v.adapter name)) (hr : R u v)
    (hput : ∀ a b, P a b → R { u with adapters := u.adapters.put name a.enter }
      { v with adapters := v.adapters.put name b.enter }) : R (u.enter name) (v.enter name) := by
  unfold enter
  generalize u.adapter name = x at h ⊢
  generalize v.adapter name = y at h ⊢
  cases h with
  | ok hab => exact hput _ _ hab
  | error f => exact hr

/-- What operations of adapters come to in related worlds, if they agree on related adapters. -/
theorem at_agree {Q : Station → Station → Prop} {x y : Act Station α}
    (h : Outcome.Rel P (u.adapter name) (v.adapter name)) (hr : R u v)
    (hxy : ∀ a b, P a b → Act.Agree Q (x.outcome ⟨a, u.site⟩) (y.outcome ⟨b, v.site⟩))
    (hput : ∀ s t, Q s t → R { u with adapters := u.adapters.put name s.adapter, site := s.site }
      { v with adapters := v.adapters.put name t.adapter, site := t.site }) :
    Act.Agree R ((at_ name x).outcome u) ((at_ name y).outcome v) := by
  cases ha : u.adapter name with
  | error f =>
    rw [ha] at h
    rw [outcome_at_error ha, outcome_at_error h.of_error]
    exact ⟨rfl, hr⟩
  | ok a =>
    rw [ha] at h
    obtain ⟨b, hb, hab⟩ := h.of_ok
    rw [outcome_at_ok ha, outcome_at_ok hb]
    exact ⟨(hxy a b hab).1, hput _ _ (hxy a b hab).2⟩

end Related

/-! ### Posts -/

theorem leads_begin (w : World) (t : Task) : w.Leads [⟨t, .begun⟩] [] (w.begin t) := by
  refine ⟨.of_step (.begins t), ?_⟩
  rw [begin, enter_site]
  exact Journal.Tells.refl _

/-- The answer to a post: a reference with the rule of the task and the id of its adapter. -/
def answers (w : World) (t : Task) (o : Outcome PostRef) : Outcome Publishing := do
  let ref ← o
  let id ← w.adapterId t.adapter
  pure ⟨ref.id, ref.url, t.rule, id⟩

theorem answers_congr (h : ∀ name, w'.adapterId name = w.adapterId name) (t : Task)
    (o : Outcome PostRef) : w'.answers t o = w.answers t o := by
  simp only [answers, h]

theorem post_leads (w : World) (t : Task) (clock : Nat) :
    w.Leads [⟨t, .ended ((post t clock).outcome w).1⟩] [] ((post t clock).outcome w).2 := by
  rw [outcome_post]
  exact ⟨.of_step (.ends t clock),
    (w.quiet_at t.adapter (Station.publish_quiet clock t.content)).2.2⟩

theorem publish_of_post {t : Task} {clock : Nat} {o : Outcome PostRef}
    (h : (post t clock).outcome w = (o, w')) :
    (publish t clock).outcome w = (w'.answers t o, w') := by
  cases o with
  | error f => exact Act.outcome_bind_error h
  | ok ref =>
    rw [publish, Act.outcome_bind_ok h, Act.outcome_bind_ok (Act.outcome_get w')]
    cases hid : w'.adapterId t.adapter with
    | error f =>
      rw [Act.outcome_bind_error (e := f) (by rw [Act.outcome_ofOutcome])]
      simp only [answers, hid]
      rfl
    | ok id =>
      rw [Act.outcome_bind_ok (a := id) (by rw [Act.outcome_ofOutcome])]
      simp only [answers, hid]
      rfl

/-- Ending a post adds its end to the posts, and the answer is made from what it came to. -/
theorem publish_leads (w : World) (t : Task) (clock : Nat) : ∃ o,
    ((publish t clock).outcome w).1 = w.answers t o ∧
    w.Leads [⟨t, .ended o⟩] [] ((publish t clock).outcome w).2 := by
  have hl := post_leads w t clock
  have hpublish := publish_of_post (rfl : (post t clock).outcome w = _)
  rw [hpublish]
  exact ⟨_, answers_congr hl.ids t _, hl⟩

end World

end Syndicate
